/-
  Jmux.Lib.JsonText — JSON texts: a reader that says which texts are JSON, and a
  printer.

  The reader is a machine over characters.  Its stack holds the arrays and objects
  that are open, so that reading a text from any place inside a larger one is a run
  of the same machine.  The printer is `serde_json::to_string`: no blanks, and every
  control character below U+0020 escaped.

  Main results:
    * `writes_print`  — what is printed reads as one value, and is one line.
    * `closes_iff`    — where a reader stands when `"` and two closing braces end
                         the text.
-/
import Jmux.Lib.Hex
import Jmux.Lib.Str
import Jmux.Lib.Transition
import Jmux.Lib.Value

namespace Jmux.Lib.JsonText

/-! ## §1. The reader. -/

/-- What is open around the place where the reader stands. -/
inductive Frame where
  | array
  | object
  deriving DecidableEq, Repr

/-- The rest of `true`, `false` or `null`. -/
inductive Word where
  | rue | ue | e | alse | lse | se | ull | ll | l
  deriving DecidableEq, Repr

/-- Inside a number. -/
inductive Digits where
  | minus | zero | int | dot | frac | exp | sign | power
  deriving DecidableEq, Repr

inductive Mode where
  /-- A value must come. -/
  | value
  /-- After `[`: a value or `]`. -/
  | firstItem
  /-- After `\x7b`: a key or the closing brace. -/
  | firstKey
  | nextKey
  | colon
  /-- A value has come to its end. -/
  | after
  | text (key : Bool)
  | escape (key : Bool)
  /-- Inside `\uXXXX`; the digits that are left after the next one. -/
  | hex (key : Bool) (left : Nat)
  | word (w : Word)
  | number (d : Digits)
  deriving DecidableEq, Repr

structure Reader where
  mode  : Mode
  stack : List Frame
  deriving DecidableEq, Repr

def blank (c : Char) : Bool := c == ' ' || c == '\t' || c == '\n' || c == '\r'

namespace Word

def step : Word → Char → Option Mode
  | rue, c => if c = 'r' then some (.word ue) else none
  | ue, c => if c = 'u' then some (.word e) else none
  | e, c => if c = 'e' then some .after else none
  | alse, c => if c = 'a' then some (.word lse) else none
  | lse, c => if c = 'l' then some (.word se) else none
  | se, c => if c = 's' then some (.word e) else none
  | ull, c => if c = 'u' then some (.word ll) else none
  | ll, c => if c = 'l' then some (.word l) else none
  | l, c => if c = 'l' then some .after else none

def start (c : Char) : Option Word :=
  if c = 't' then some rue else if c = 'f' then some alse else if c = 'n' then some ull else none

end Word

namespace Digits

def start (c : Char) : Option Digits :=
  if c = '-' then some minus else if c = '0' then some zero
  else if c.isDigit then some int else none

/-- After the integer part. -/
def fraction (c : Char) : Option Digits :=
  if c = '.' then some dot else if c = 'e' ∨ c = 'E' then some exp else none

def step : Digits → Char → Option Digits
  | minus, c => if c = '0' then some zero else if c.isDigit then some int else none
  | zero, c => fraction c
  | int, c => if c.isDigit then some int else fraction c
  | dot, c => if c.isDigit then some frac else none
  | frac, c =>
      if c.isDigit then some frac else if c = 'e' ∨ c = 'E' then some exp else none
  | exp, c =>
      if c = '+' ∨ c = '-' then some sign else if c.isDigit then some power else none
  | sign, c => if c.isDigit then some power else none
  | power, c => if c.isDigit then some power else none

/-- A number may end here. -/
def complete : Digits → Bool
  | zero | int | frac | power => true
  | minus | dot | exp | sign => false

end Digits

/-- The first character of a value. -/
def beginValue (stack : List Frame) (c : Char) : Option Reader :=
  if c = '"' then some ⟨.text false, stack⟩
  else if c = '[' then some ⟨.firstItem, .array :: stack⟩
  else if c = '{' then some ⟨.firstKey, .object :: stack⟩
  else match Digits.start c with
    | some d => some ⟨.number d, stack⟩
    | none => (Word.start c).map fun w => ⟨.word w, stack⟩

/-- What may follow a value. -/
def afterValue (stack : List Frame) (c : Char) : Option Reader :=
  if blank c then some ⟨.after, stack⟩
  else match stack with
    | [] => none
    | .array :: rest =>
        if c = ',' then some ⟨.value, stack⟩
        else if c = ']' then some ⟨.after, rest⟩ else none
    | .object :: rest =>
        if c = ',' then some ⟨.nextKey, stack⟩
        else if c = '}' then some ⟨.after, rest⟩ else none

/-- After a backslash. -/
def isEscape (c : Char) : Bool :=
  c == '"' || c == '\\' || c == '/' || c == 'b' || c == 'f' || c == 'n' || c == 'r' || c == 't'

def step (r : Reader) (c : Char) : Option Reader :=
  match r.mode with
  | .value => if blank c then some r else beginValue r.stack c
  | .firstItem =>
      if blank c then some r
      else if c = ']' then some ⟨.after, r.stack.tail⟩ else beginValue r.stack c
  | .firstKey =>
      if blank c then some r
      else if c = '}' then some ⟨.after, r.stack.tail⟩
      else if c = '"' then some ⟨.text true, r.stack⟩ else none
  | .nextKey =>
      if blank c then some r else if c = '"' then some ⟨.text true, r.stack⟩ else none
  | .colon => if blank c then some r else if c = ':' then some ⟨.value, r.stack⟩ else none
  | .after => afterValue r.stack c
  | .text key =>
      if c = '"' then some ⟨if key then .colon else .after, r.stack⟩
      else if c = '\\' then some ⟨.escape key, r.stack⟩
      -- a control character must be escaped
      else if c.toNat < 0x20 then none else some r
  | .escape key =>
      if c = 'u' then some ⟨.hex key 3, r.stack⟩
      else if isEscape c then some ⟨.text key, r.stack⟩ else none
  | .hex key left =>
      if (Hex.toDigit c).isSome then
        some ⟨match left with | 0 => .text key | left + 1 => .hex key left, r.stack⟩
      else none
  | .word w => (w.step c).map fun mode => ⟨mode, r.stack⟩
  | .number d =>
      match d.step c with
      | some d => some ⟨.number d, r.stack⟩
      -- the character after a number belongs to what is around it
      | none => if d.complete then afterValue r.stack c else none

/-- A value has been read, with `stack` around it. -/
def Reader.Complete (r : Reader) (stack : List Frame) : Prop :=
  r.stack = stack ∧ (r.mode = .after ∨ ∃ d : Digits, r.mode = .number d ∧ d.complete = true)

/-- The text is one JSON value, with blanks around it. -/
def IsJson (text : List Char) : Prop :=
  ∃ r, exec step ⟨.value, []⟩ text = some r ∧ r.Complete []

/-! ## §2. The printer. -/

/-- One character inside quotes. -/
def escapeChar (c : Char) : List Char :=
  if c = '"' then ['\\', '"']
  else if c = '\\' then ['\\', '\\']
  else if c = '\n' then ['\\', 'n']
  else if c = '\r' then ['\\', 'r']
  else if c = '\t' then ['\\', 't']
  else if c.toNat = 8 then ['\\', 'b']
  else if c.toNat = 12 then ['\\', 'f']
  else if c.toNat < 0x20 then
    ['\\', 'u', '0', '0', Hex.digit (c.toNat / 16), Hex.digit (c.toNat % 16)]
  else [c]

def printText (s : String) : List Char := '"' :: s.toList.flatMap escapeChar ++ ['"']

/-- The text of a number. -/
def IsNumber (text : List Char) : Prop :=
  ∃ c rest d₀ d, text = c :: rest ∧ Digits.start c = some d₀ ∧
    exec Digits.step d₀ rest = some d ∧ d.complete = true

/-- How floating-point numbers are written. -/
structure FloatText (F : Type) where
  text   : F → List Char
  number : ∀ x, IsNumber (text x)

variable {F : Type}

mutual

def print (ft : FloatText F) : Value F → List Char
  | .null => ['n', 'u', 'l', 'l']
  | .bool true => ['t', 'r', 'u', 'e']
  | .bool false => ['f', 'a', 'l', 's', 'e']
  | .int n => (toString n).toList
  | .float x => ft.text x
  | .str s => printText s
  | .arr items => '[' :: [','].intercalate (printItems ft items) ++ [']']
  | .obj fields => '{' :: [','].intercalate (printFields ft fields) ++ ['}']

def printItems (ft : FloatText F) : List (Value F) → List (List Char)
  | [] => []
  | item :: items => print ft item :: printItems ft items

def printFields (ft : FloatText F) : List (String × Value F) → List (List Char)
  | [] => []
  | (key, v) :: fields => (printText key ++ ':' :: print ft v) :: printFields ft fields

end

/-! ## §3. Texts in quotes. -/

theorem exec_escapeChar (key : Bool) (stack : List Frame) (c : Char) :
    exec step ⟨.text key, stack⟩ (escapeChar c) = some ⟨.text key, stack⟩ := by
  unfold escapeChar
  by_cases hquote : c = '"'
  · rw [if_pos hquote]
    rfl
  rw [if_neg hquote]
  by_cases hback : c = '\\'
  · rw [if_pos hback]
    rfl
  rw [if_neg hback]
  split
  · rfl
  split
  · rfl
  split
  · rfl
  split
  · rfl
  split
  · rfl
  split
  next hcontrol =>
    have hhi := Hex.toDigit_digit (show c.toNat / 16 < 16 by omega)
    have hlo := Hex.toDigit_digit (show c.toNat % 16 < 16 by omega)
    have hzero : Hex.toDigit '0' = some 0 := by decide
    simp [exec, step, hhi, hlo, hzero]
  next hcontrol => simp [exec, step, hquote, hback, hcontrol]

theorem exec_escaped (key : Bool) (stack : List Frame) (cs : List Char) :
    exec step ⟨.text key, stack⟩ (cs.flatMap escapeChar) = some ⟨.text key, stack⟩ := by
  induction cs with
  | nil => rfl
  | cons c cs ih =>
      rw [List.flatMap_cons]
      exact exec_append.mpr ⟨_, exec_escapeChar key stack c, ih⟩

/-- From inside the quotes to behind them. -/
theorem exec_quoted (key : Bool) (stack : List Frame) (s : String) :
    exec step ⟨.text key, stack⟩ (s.toList.flatMap escapeChar ++ ['"']) =
      some ⟨if key then .colon else .after, stack⟩ :=
  exec_append.mpr ⟨_, exec_escaped key stack s.toList, rfl⟩

/-- What is printed of a character has no line feed in it. -/
theorem line_escapeChar (c : Char) : ∀ d ∈ escapeChar c, d ≠ '\n' := by
  have hdigit : ∀ n : Fin 16, Hex.digit n ≠ '\n' := by decide
  have hclosed : ∀ {text : List Char}, (text.all fun d => d != '\n') = true →
      ∀ d ∈ text, d ≠ '\n' := by
    intro text h d hd
    simpa using List.all_eq_true.mp h d hd
  unfold escapeChar
  split
  · exact hclosed (by decide)
  split
  · exact hclosed (by decide)
  split
  · exact hclosed (by decide)
  split
  · exact hclosed (by decide)
  split
  · exact hclosed (by decide)
  split
  · exact hclosed (by decide)
  split
  · exact hclosed (by decide)
  split
  next hcontrol =>
    have hhi := hdigit ⟨c.toNat / 16, by omega⟩
    have hlo := hdigit ⟨c.toNat % 16, by omega⟩
    have hprefix : ∀ d ∈ ['\\', 'u', '0', '0'], d ≠ '\n' := hclosed (by decide)
    intro d hd
    rcases List.mem_append.mp (show d ∈ ['\\', 'u', '0', '0'] ++ [_, _] from hd) with hd | hd
    · exact hprefix d hd
    rcases List.mem_cons.mp hd with rfl | hd
    · exact hhi
    · rw [List.mem_singleton.mp hd]
      exact hlo
  next hfeed _ _ _ _ _ =>
    intro d hd
    rw [List.mem_singleton.mp hd]
    exact hfeed

theorem line_printText (s : String) : ∀ d ∈ printText s, d ≠ '\n' := by
  unfold printText
  refine List.forall_mem_cons.mpr ⟨by decide, List.forall_mem_append.mpr ⟨?_, ?_⟩⟩
  · intro d hd
    obtain ⟨c, _, hc⟩ := List.mem_flatMap.mp hd
    exact line_escapeChar c d hc
  · intro d hd
    rw [List.mem_singleton.mp hd]
    decide

/-! ## §4. One value. -/

/-- The text is read as one value wherever a value may begin, and it is one line. -/
structure Writes (text : List Char) : Prop where
  reads : ∃ c rest, text = c :: rest ∧ ∀ stack, ∃ r₀ r, beginValue stack c = some r₀ ∧
    exec step r₀ rest = some r ∧ r.Complete stack
  line  : ∀ c ∈ text, c ≠ '\n'

/-- Neither a blank nor a closing bracket begins a value. -/
theorem not_begins {stack : List Frame} {c : Char} {r : Reader}
    (h : beginValue stack c = some r) : blank c = false ∧ c ≠ ']' := by
  have hnone : ∀ d ∈ [' ', '\t', '\n', '\r', ']'], beginValue stack d = none := by
    simp [beginValue, Digits.start, Word.start]
  have hnot : c ∉ [' ', '\t', '\n', '\r', ']'] := by
    intro hc
    rw [hnone c hc] at h
    cases h
  simp only [List.mem_cons, List.not_mem_nil, not_or] at hnot
  obtain ⟨hspace, htab, hfeed, hreturn, hclose, _⟩ := hnot
  exact ⟨by simp [blank, hspace, htab, hfeed, hreturn], hclose⟩

theorem Writes.exec_value {text : List Char} (h : Writes text) {mode : Mode}
    (hmode : mode = .firstItem ∨ mode = .value) (stack : List Frame) :
    ∃ r, exec step ⟨mode, stack⟩ text = some r ∧ r.Complete stack := by
  obtain ⟨c, rest, rfl, hreads⟩ := h.reads
  obtain ⟨r₀, r, hbegin, hrest, hdone⟩ := hreads stack
  obtain ⟨hblank, hclose⟩ := not_begins hbegin
  have hstep : step ⟨mode, stack⟩ c = some r₀ := by
    rcases hmode with rfl | rfl
    · simp [step, hblank, hclose, hbegin]
    · simp [step, hblank, hbegin]
  exact ⟨r, exec_cons.mpr ⟨r₀, hstep, hrest⟩, hdone⟩

theorem Writes.isJson {text : List Char} (h : Writes text) : IsJson text :=
  h.exec_value (.inr rfl) []

/-- A comma or a closing bracket ends a number too. -/
theorem Reader.Complete.step {r : Reader} {stack : List Frame} (h : r.Complete stack) {c : Char}
    (hc : c ∈ [',', ']', '}']) : step r c = afterValue stack c := by
  obtain ⟨rfl, hafter | ⟨d, hd, hcomplete⟩⟩ := h
  · unfold JsonText.step
    rw [hafter]
  · have hend : d.step c = none := by
      rcases (by simpa using hc : c = ',' ∨ c = ']' ∨ c = '}') with rfl | rfl | rfl
      all_goals cases d <;> rfl
    unfold JsonText.step
    rw [hd]
    dsimp only
    rw [hend]
    dsimp only
    rw [if_pos hcomplete]

/-! ## §5. Values. -/

theorem writes_text (s : String) : Writes (printText s) where
  reads := ⟨'"', _, rfl, fun stack =>
    ⟨⟨.text false, stack⟩, _, rfl, exec_quoted false stack s, rfl, .inl rfl⟩⟩
  line := line_printText s

theorem exec_number {stack : List Frame} {d₀ d : Digits} {rest : List Char}
    (h : exec Digits.step d₀ rest = some d) :
    exec step ⟨.number d₀, stack⟩ rest = some ⟨.number d, stack⟩ := by
  induction rest generalizing d₀ with
  | nil =>
      obtain rfl := Option.some.inj h
      rfl
  | cons c rest ih =>
      obtain ⟨d₁, hstep, hrest⟩ := exec_cons.mp h
      have hone : step ⟨.number d₀, stack⟩ c = some ⟨.number d₁, stack⟩ := by
        simp [step, hstep]
      exact exec_cons.mpr ⟨_, hone, ih hrest⟩

theorem line_digits {d₀ d : Digits} {rest : List Char} (h : exec Digits.step d₀ rest = some d) :
    ∀ c ∈ rest, c ≠ '\n' := by
  induction rest generalizing d₀ with
  | nil => exact fun _ hc => absurd hc List.not_mem_nil
  | cons c rest ih =>
      obtain ⟨d₁, hstep, hrest⟩ := exec_cons.mp h
      refine List.forall_mem_cons.mpr ⟨?_, ih hrest⟩
      rintro rfl
      have hnone : d₀.step '\n' = none := by cases d₀ <;> rfl
      rw [hnone] at hstep
      cases hstep

theorem IsNumber.writes {text : List Char} (h : IsNumber text) : Writes text := by
  obtain ⟨c, rest, d₀, d, rfl, hstart, hrest, hcomplete⟩ := h
  have hnone : ∀ b ∈ ['"', '[', '{', '\n'], Digits.start b = none := by
    simp [Digits.start]
  have hnot : c ∉ ['"', '[', '{', '\n'] := by
    intro hc
    rw [hnone c hc] at hstart
    cases hstart
  simp only [List.mem_cons, List.not_mem_nil, not_or] at hnot
  obtain ⟨hquote, harray, hobject, hfeed, _⟩ := hnot
  refine ⟨⟨c, rest, rfl, fun stack => ⟨⟨.number d₀, stack⟩, _, ?_, exec_number hrest, rfl,
    .inr ⟨d, rfl, hcomplete⟩⟩⟩, List.forall_mem_cons.mpr ⟨hfeed, line_digits hrest⟩⟩
  simp [beginValue, hquote, harray, hobject, hstart]

/-- A positive number is written without a leading zero. -/
theorem toDigits_head {n : Nat} (h : 0 < n) :
    ∃ c rest, Nat.toDigits 10 n = c :: rest ∧ c ≠ '0' := by
  induction n using Nat.strong_induction_on with
  | _ n ih =>
      rw [Nat.toDigits_eq_if (by decide)]
      split
      · exact ⟨_, [], rfl, by simpa using Nat.pos_iff_ne_zero.mp h⟩
      · obtain ⟨c, rest, heq, hc⟩ := ih (n / 10) (by omega) (by omega)
        exact ⟨c, rest ++ [(n % 10).digitChar], by rw [heq]; rfl, hc⟩

theorem exec_int {rest : List Char} (h : ∀ c ∈ rest, c.isDigit = true) :
    exec Digits.step .int rest = some .int := by
  induction rest with
  | nil => rfl
  | cons c rest ih =>
      have hc := h c List.mem_cons_self
      have hstep : Digits.step .int c = some .int := by simp [Digits.step, hc]
      exact exec_cons.mpr ⟨_, hstep, ih fun d hd => h d (List.mem_cons_of_mem c hd)⟩

/-- From the start or from behind a minus sign. -/
theorem number_nat (n : Nat) : ∃ c rest d₀ d, Nat.toDigits 10 n = c :: rest ∧
    Digits.start c = some d₀ ∧ Digits.step .minus c = some d₀ ∧
      exec Digits.step d₀ rest = some d ∧ d.complete = true := by
  by_cases hn : n = 0
  · rw [hn]
    exact ⟨'0', [], .zero, .zero, rfl, rfl, rfl, rfl, rfl⟩
  · obtain ⟨c, rest, heq, hc⟩ := toDigits_head (Nat.pos_of_ne_zero hn)
    have hall : ∀ d ∈ c :: rest, d.isDigit = true := by
      intro d hd
      rw [← heq] at hd
      exact Nat.isDigit_of_mem_toDigits (by decide) (by decide) hd
    obtain ⟨hdigit, hrest⟩ := List.forall_mem_cons.mp hall
    have hsign : c ≠ '-' := by
      rintro rfl
      exact absurd hdigit (by decide)
    refine ⟨c, rest, .int, .int, heq, ?_, ?_, exec_int hrest, rfl⟩
    · simp [Digits.start, hsign, hc, hdigit]
    · simp [Digits.step, hc, hdigit]

theorem isNumber_int (n : Int) : IsNumber (toString n).toList := by
  cases n with
  | ofNat n =>
      obtain ⟨c, rest, d₀, d, heq, hstart, _, hrest, hcomplete⟩ := number_nat n
      refine ⟨c, rest, d₀, d, ?_, hstart, hrest, hcomplete⟩
      rw [← heq, ← Nat.toList_repr]
      rfl
  | negSucc n =>
      obtain ⟨c, rest, d₀, d, heq, _, hstep, hrest, hcomplete⟩ := number_nat (n + 1)
      refine ⟨'-', c :: rest, .minus, d, ?_, rfl, exec_cons.mpr ⟨d₀, hstep, hrest⟩, hcomplete⟩
      rw [← heq, ← Nat.toList_repr]
      show ("-" ++ (n + 1).repr).toList = _
      rw [String.toList_append]
      rfl

/-! ## §6. Arrays and objects. -/

section

variable {frame : Frame} {first next : Mode} {close : Char} {stack : List Frame}

/-- Parts with commas between them, up to the closing bracket: each part is read from
where the first one begins and from behind a comma. -/
theorem exec_joined (hclose : close ∈ [',', ']', '}'])
    (hcomma : afterValue (frame :: stack) ',' = some ⟨next, frame :: stack⟩)
    (hend : afterValue (frame :: stack) close = some ⟨.after, stack⟩) :
    ∀ {texts : List (List Char)}, texts ≠ [] →
      (∀ t ∈ texts, ∀ mode, mode = first ∨ mode = next → ∃ r,
        exec step ⟨mode, frame :: stack⟩ t = some r ∧ r.Complete (frame :: stack)) →
      ∀ mode, mode = first ∨ mode = next →
        exec step ⟨mode, frame :: stack⟩ ([','].intercalate texts ++ [close]) =
          some ⟨.after, stack⟩
  | [], hne, _, _, _ => absurd rfl hne
  | [t], _, hall, mode, hmode => by
      obtain ⟨r, hr, hdone⟩ := hall t List.mem_cons_self mode hmode
      rw [List.intercalate_singleton]
      have hlast : exec step r [close] = some ⟨.after, stack⟩ :=
        exec_cons.mpr ⟨_, (hdone.step hclose).trans hend, rfl⟩
      exact exec_append.mpr ⟨r, hr, hlast⟩
  | t :: u :: texts, _, hall, mode, hmode => by
      obtain ⟨r, hr, hdone⟩ := hall t List.mem_cons_self mode hmode
      have hrest := exec_joined hclose hcomma hend (List.cons_ne_nil u texts)
        (fun v hv => hall v (List.mem_cons_of_mem t hv)) next (.inr rfl)
      have hsep : exec step r (',' :: ([','].intercalate (u :: texts) ++ [close])) =
          some ⟨.after, stack⟩ :=
        exec_cons.mpr ⟨_, (hdone.step List.mem_cons_self).trans hcomma, hrest⟩
      rw [List.intercalate_cons_cons, List.append_assoc, List.append_assoc]
      exact exec_append.mpr ⟨r, hr, hsep⟩

end

theorem writes_array {texts : List (List Char)} (h : ∀ t ∈ texts, Writes t) :
    Writes ('[' :: [','].intercalate texts ++ [']']) where
  reads := by
    refine ⟨'[', _, rfl, fun stack => ⟨⟨.firstItem, .array :: stack⟩, ⟨.after, stack⟩, rfl, ?_,
      rfl, .inl rfl⟩⟩
    cases texts with
    | nil => rfl
    | cons t texts =>
        refine @exec_joined .array .firstItem .value ']' stack (by simp) rfl rfl _
          (List.cons_ne_nil t texts) (fun u hu mode hmode => ?_) _ (.inl rfl)
        exact (h u hu).exec_value hmode _
  line := by
    refine List.forall_mem_cons.mpr ⟨by decide, List.forall_mem_append.mpr ⟨?_, by simp⟩⟩
    exact (Str.forall_mem_intercalate_iff (by simp) _).mpr fun t ht => (h t ht).line

/-- A key and its value. -/
structure Member (text : List Char) : Prop where
  reads : ∀ (stack : List Frame) mode, mode = Mode.firstKey ∨ mode = .nextKey → ∃ r,
    exec step ⟨mode, .object :: stack⟩ text = some r ∧ r.Complete (.object :: stack)
  line  : ∀ c ∈ text, c ≠ '\n'

theorem Writes.member {text : List Char} (h : Writes text) (key : String) :
    Member (printText key ++ ':' :: text) where
  reads := by
    intro stack mode hmode
    obtain ⟨r, hr, hdone⟩ := h.exec_value (.inr rfl) (.object :: stack)
    refine ⟨r, ?_, hdone⟩
    have hkey : exec step ⟨mode, .object :: stack⟩ (printText key) =
        some ⟨.colon, .object :: stack⟩ := by
      refine exec_cons.mpr ⟨⟨.text true, .object :: stack⟩, ?_, exec_quoted true _ key⟩
      rcases hmode with rfl | rfl <;> rfl
    exact exec_append.mpr ⟨_, hkey, exec_cons.mpr ⟨⟨.value, .object :: stack⟩, rfl, hr⟩⟩
  line := List.forall_mem_append.mpr
    ⟨line_printText key, List.forall_mem_cons.mpr ⟨by decide, h.line⟩⟩

theorem writes_object {texts : List (List Char)} (h : ∀ t ∈ texts, Member t) :
    Writes ('{' :: [','].intercalate texts ++ ['}']) where
  reads := by
    refine ⟨'{', _, rfl, fun stack => ⟨⟨.firstKey, .object :: stack⟩, ⟨.after, stack⟩, rfl, ?_,
      rfl, .inl rfl⟩⟩
    cases texts with
    | nil => rfl
    | cons t texts =>
        refine @exec_joined .object .firstKey .nextKey '}' stack (by simp) rfl rfl _
          (List.cons_ne_nil t texts) (fun u hu mode hmode => ?_) _ (.inl rfl)
        exact (h u hu).reads stack mode hmode
  line := by
    refine List.forall_mem_cons.mpr ⟨by decide, List.forall_mem_append.mpr ⟨?_, by simp⟩⟩
    exact (Str.forall_mem_intercalate_iff (by simp) _).mpr fun t ht => (h t ht).line

mutual

/-- **What is printed reads as one value**, and is one line. -/
theorem writes_print (ft : FloatText F) : ∀ v : Value F, Writes (print ft v)
  | .null => ⟨⟨'n', _, rfl, fun _ => ⟨_, _, rfl, rfl, rfl, .inl rfl⟩⟩, by simp [print]⟩
  | .bool true => ⟨⟨'t', _, rfl, fun _ => ⟨_, _, rfl, rfl, rfl, .inl rfl⟩⟩, by simp [print]⟩
  | .bool false => ⟨⟨'f', _, rfl, fun _ => ⟨_, _, rfl, rfl, rfl, .inl rfl⟩⟩, by simp [print]⟩
  | .int n => (isNumber_int n).writes
  | .float x => (ft.number x).writes
  | .str s => writes_text s
  | .arr items => writes_array (writes_items ft items)
  | .obj fields => writes_object (members_fields ft fields)

theorem writes_items (ft : FloatText F) :
    ∀ items : List (Value F), ∀ t ∈ printItems ft items, Writes t
  | [] => fun _ ht => absurd ht List.not_mem_nil
  | item :: items =>
      List.forall_mem_cons.mpr ⟨writes_print ft item, writes_items ft items⟩

theorem members_fields (ft : FloatText F) :
    ∀ fields : List (String × Value F), ∀ t ∈ printFields ft fields, Member t
  | [] => fun _ ht => absurd ht List.not_mem_nil
  | (key, v) :: fields =>
      List.forall_mem_cons.mpr ⟨(writes_print ft v).member key, members_fields ft fields⟩

end

/-- Inside quotes, closing braces are text. -/
theorem not_complete_text {key : Bool} {stack : List Frame} {r : Reader}
    (h : exec step ⟨.text key, stack⟩ ['}', '}'] = some r) : ¬ r.Complete [] := by
  have hsame : exec step ⟨.text key, stack⟩ ['}', '}'] = some ⟨.text key, stack⟩ := rfl
  obtain rfl := Option.some.inj (hsame.symm.trans h)
  rintro ⟨_, hafter | ⟨d, hd, _⟩⟩
  · cases hafter
  · cases hd

theorem afterValue_quote (stack : List Frame) : afterValue stack '"' = none := by
  cases stack with
  | nil => rfl
  | cons frame stack => cases frame <;> rfl

/-- Behind a value, a closing brace closes an object. -/
theorem exec_brace {stack : List Frame} {cs : List Char} {r : Reader}
    (h : exec step ⟨.after, stack⟩ ('}' :: cs) = some r) :
    ∃ rest, stack = .object :: rest ∧ exec step ⟨.after, rest⟩ cs = some r := by
  obtain ⟨r₁, hstep, hcs⟩ := exec_cons.mp h
  cases stack with
  | nil => cases hstep
  | cons frame rest =>
      cases frame with
      | array => cases hstep
      | object =>
          obtain rfl := Option.some.inj hstep
          exact ⟨rest, rfl, hcs⟩

/-- A quote and two closing braces end the text exactly where the reader stands inside a
text that is a value, in an object inside the outermost one. -/
theorem closes_iff (r : Reader) :
    (∃ r', exec step r ['"', '}', '}'] = some r' ∧ r'.Complete []) ↔
      r = ⟨.text false, [.object, .object]⟩ := by
  constructor
  · rintro ⟨r', hrun, hdone⟩
    obtain ⟨r₁, hquote, hbraces⟩ := exec_cons.mp hrun
    obtain ⟨mode, stack⟩ := r
    -- a text that the quote opens swallows the braces
    have hopened : ∀ key stack, r₁ = ⟨.text key, stack⟩ → False := by
      rintro key stack rfl
      exact not_complete_text hbraces hdone
    cases mode with
    | value | firstItem | firstKey | nextKey =>
        exact (hopened _ _ (Option.some.inj hquote).symm).elim
    | escape key => exact (hopened _ _ (Option.some.inj hquote).symm).elim
    | hex key left => cases hquote
    | colon => cases hquote
    | word w => cases w <;> cases hquote
    | after =>
        rw [show step ⟨.after, stack⟩ '"' = none from afterValue_quote stack] at hquote
        cases hquote
    | number d =>
        have hnone : d.step '"' = none := by cases d <;> rfl
        simp [step, hnone, afterValue_quote stack] at hquote
    | text key =>
        obtain rfl := Option.some.inj hquote
        cases key with
        | true => cases hbraces
        | false =>
            obtain ⟨inner, rfl, hinner⟩ := exec_brace hbraces
            obtain ⟨rest, rfl, hrest⟩ := exec_brace hinner
            obtain rfl := Option.some.inj hrest
            have hnil : rest = [] := hdone.1
            rw [hnil]
  · rintro rfl
    exact ⟨⟨.after, []⟩, rfl, rfl, .inl rfl⟩

end Jmux.Lib.JsonText
