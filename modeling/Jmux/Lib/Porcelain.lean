/-
  Jmux.Lib.Porcelain — the short format of `git status --porcelain`.

  A name is a sequence of bytes.  A name with an unusual byte or a space in it is
  printed between double quotes, and an unusual byte as an escape sequence; with
  the default `core.quotePath` the bytes outside of ASCII are unusual.  A renamed
  or copied file is printed as `source -> destination`.

  Main results:
    * `lines_porcelain`     — one line for every entry.
    * `afterLast_body`      — the last ` -> ` of a line stands before the
                              destination, unless the destination has one.
    * `prefix_of_reading`   — a directory that begins what is between the quotes
                              begins the name.
-/
import Mathlib.Data.List.Infix
import Mathlib.Tactic.IntervalCases
import Jmux.Lib.Str

namespace Jmux.Lib.Porcelain

/-! ## §1. Names and how they are printed. -/

/-- A path, as the file system has it. -/
abbrev Name := List UInt8

/-- A control character, a quote, a backslash, or a byte outside of ASCII. -/
def isUnusual (b : UInt8) : Bool :=
  b.toNat < 0x20 || b.toNat == 0x22 || b.toNat == 0x5c || 0x7f ≤ b.toNat

/-- The bytes with an escape letter of their own. -/
def escapeLetter (b : UInt8) : Option Char :=
  match b.toNat with
  | 0x07 => some 'a'
  | 0x08 => some 'b'
  | 0x09 => some 't'
  | 0x0a => some 'n'
  | 0x0b => some 'v'
  | 0x0c => some 'f'
  | 0x0d => some 'r'
  | 0x22 => some '"'
  | 0x5c => some '\\'
  | _ => none

/-- Three octal digits. -/
def octal (b : UInt8) : List Char :=
  [(b.toNat / 64).digitChar, (b.toNat / 8 % 8).digitChar, (b.toNat % 8).digitChar]

/-- A byte, as it stands in a printed name. -/
def escapeByte (b : UInt8) : List Char :=
  if isUnusual b then '\\' :: (escapeLetter b).elim (octal b) ([·])
  else [Char.ofNat b.toNat]

def escapeName (name : Name) : List Char := name.flatMap escapeByte

/-- Whether the name is printed between quotes. -/
def isQuoted (name : Name) : Bool := name.any fun b => isUnusual b || b == 0x20

def quotePath (name : Name) : List Char :=
  if isQuoted name then '"' :: escapeName name ++ ['"'] else escapeName name

/-! ## §2. Entries. -/

/-- One letter of the two-letter code. -/
inductive StatusCode
  | unmodified | modified | typeChanged | added | deleted | renamed | copied | unmerged
  | untracked | ignored
  deriving DecidableEq

def StatusCode.char : StatusCode → Char
  | unmodified => ' '
  | modified => 'M'
  | typeChanged => 'T'
  | added => 'A'
  | deleted => 'D'
  | renamed => 'R'
  | copied => 'C'
  | unmerged => 'U'
  | untracked => '?'
  | ignored => '!'

/-- The codes of entries with a source. -/
def StatusCode.hasSource (c : StatusCode) : Bool := c = renamed || c = copied

/-- One entry; a renamed or copied file has a source, and no name is empty. -/
structure Entry where
  index : StatusCode
  worktree : StatusCode
  source : Option Name
  path : Name
  path_ne : path ≠ []
  source_ne : ∀ s ∈ source, s ≠ []
  source_iff : source.isSome = (index.hasSource || worktree.hasSource)

/-- The paths of an entry: what it is about, and where that comes from. -/
def Entry.paths (e : Entry) : List Name := e.source.toList ++ [e.path]

/-- What stands between a source and its destination. -/
def arrow : List Char := [' ', '-', '>', ' ']

/-- The arrow in a name. -/
def arrowBytes : Name := [0x20, 0x2d, 0x3e, 0x20]

/-- What follows the two letters and the space. -/
def Entry.body (e : Entry) : List Char :=
  match e.source with
  | some source => quotePath source ++ arrow ++ quotePath e.path
  | none => quotePath e.path

def Entry.line (e : Entry) : List Char := e.index.char :: e.worktree.char :: ' ' :: e.body

/-- The whole output. -/
def porcelain (entries : List Entry) : String :=
  String.ofList (entries.flatMap fun e => e.line ++ ['\n'])

/-! ## §3. What an escaped name is made of. -/

/-- The character of a byte that is not escaped. -/
def plainChar (b : UInt8) : Char := Char.ofNat b.toNat

theorem toNat_plainChar {b : UInt8} (h : b.toNat < 0x80) : (plainChar b).toNat = b.toNat := by
  unfold plainChar
  exact Str.toNat_ofNat (by omega)

theorem usual_iff {b : UInt8} :
    isUnusual b = false ↔
      0x20 ≤ b.toNat ∧ b.toNat < 0x7f ∧ b.toNat ≠ 0x22 ∧ b.toNat ≠ 0x5c := by
  unfold isUnusual
  simp only [Bool.or_eq_false_iff, decide_eq_false_iff_not, beq_eq_false_iff_ne]
  omega

/-- The characters of an escaped name. -/
def Printable (c : Char) : Prop := 0x20 ≤ c.toNat ∧ c.toNat < 0x7f

theorem Printable.ne_newline {c : Char} (h : Printable c) : c ≠ '\n' := by
  rintro rfl
  exact absurd h.1 (by decide)

theorem Printable.ne_return {c : Char} (h : Printable c) : c ≠ '\r' := by
  rintro rfl
  exact absurd h.1 (by decide)

/-- The space is the only printable white space. -/
theorem Printable.not_whitespace {c : Char} (h : Printable c) (hspace : c ≠ ' ') :
    Str.isWhitespace c = false := by
  have hne : c.toNat ≠ 0x20 := fun heq => hspace (Char.toNat_inj.mp heq)
  obtain ⟨hlow, hhigh⟩ := h
  unfold Str.isWhitespace
  simp only [Bool.or_eq_false_iff, Bool.and_eq_false_iff, decide_eq_false_iff_not,
    beq_eq_false_iff_ne]
  omega

theorem escapeByte_of_usual {b : UInt8} (h : isUnusual b = false) :
    escapeByte b = [plainChar b] := by
  unfold escapeByte
  rw [if_neg (by simp [h])]
  rfl

/-- What an escape sequence consists of, after its backslash. -/
theorem escapeByte_of_unusual {b : UInt8} (h : isUnusual b = true) :
    ∃ rest, escapeByte b = '\\' :: rest ∧ ∀ c ∈ rest, Printable c ∧ c ≠ ' ' := by
  have hdigit : ∀ d < 8, Printable d.digitChar ∧ d.digitChar ≠ ' ' := by
    intro d hd
    unfold Printable
    interval_cases d <;> decide
  refine ⟨_, if_pos h, ?_⟩
  intro c hc
  unfold escapeLetter at hc
  split at hc
  case h_10 =>
    rcases List.mem_cons.mp hc with rfl | hc
    · have hbyte := b.toNat_lt
      exact hdigit _ (by omega)
    · rcases List.mem_cons.mp hc with rfl | hc
      · exact hdigit _ (Nat.mod_lt _ (by omega))
      · rw [List.mem_singleton.mp hc]
        exact hdigit _ (Nat.mod_lt _ (by omega))
  all_goals
    rw [List.mem_singleton.mp hc]
    unfold Printable
    decide

theorem printable_escapeByte (b : UInt8) : ∀ c ∈ escapeByte b, Printable c := by
  by_cases h : isUnusual b = true
  · obtain ⟨rest, hrest, hall⟩ := escapeByte_of_unusual h
    rw [hrest]
    intro c hc
    rcases List.mem_cons.mp hc with rfl | hc
    · unfold Printable
      decide
    · exact (hall c hc).1
  · have husual : isUnusual b = false := by simpa using h
    have hbounds := usual_iff.mp husual
    rw [escapeByte_of_usual husual]
    intro c hc
    rw [List.mem_singleton.mp hc]
    unfold Printable
    rw [toNat_plainChar (by omega)]
    omega

theorem printable_escapeName (name : Name) : ∀ c ∈ escapeName name, Printable c := by
  intro c hc
  obtain ⟨b, _, hb⟩ := List.mem_flatMap.mp hc
  exact printable_escapeByte b c hb

theorem printable_quotePath (name : Name) : ∀ c ∈ quotePath name, Printable c := by
  have hquote : Printable '"' := by
    unfold Printable
    decide
  intro c hc
  unfold quotePath at hc
  split at hc
  · rcases List.mem_append.mp hc with hc | hc
    · rcases List.mem_cons.mp hc with rfl | hc
      · exact hquote
      · exact printable_escapeName name c hc
    · rw [List.mem_singleton.mp hc]
      exact hquote
  · exact printable_escapeName name c hc

/-- No quote begins what a byte is printed as. -/
theorem escapeByte_head (b : UInt8) : ∃ c rest, escapeByte b = c :: rest ∧ c ≠ '"' := by
  by_cases h : isUnusual b = true
  · obtain ⟨rest, hrest, _⟩ := escapeByte_of_unusual h
    exact ⟨'\\', rest, hrest, by decide⟩
  · have husual : isUnusual b = false := by simpa using h
    have hbounds := usual_iff.mp husual
    refine ⟨plainChar b, [], escapeByte_of_usual husual, ?_⟩
    intro heq
    have hnat := toNat_plainChar (b := b) (by omega)
    rw [heq] at hnat
    exact hbounds.2.2.1 hnat.symm

@[simp] theorem escapeName_cons (b : UInt8) (name : Name) :
    escapeName (b :: name) = escapeByte b ++ escapeName name := rfl

theorem escapeName_head {name : Name} (hne : name ≠ []) :
    ∃ c rest, escapeName name = c :: rest ∧ c ≠ '"' := by
  cases name with
  | nil => exact absurd rfl hne
  | cons b name =>
      obtain ⟨c, rest, hc, hquote⟩ := escapeByte_head b
      refine ⟨c, rest ++ escapeName name, ?_, hquote⟩
      rw [escapeName_cons, hc, List.cons_append]

theorem backslash_mem_escapeName {name : Name} {b : UInt8} (hb : b ∈ name)
    (h : isUnusual b = true) : '\\' ∈ escapeName name := by
  obtain ⟨rest, hrest, _⟩ := escapeByte_of_unusual h
  refine List.mem_flatMap.mpr ⟨b, hb, ?_⟩
  rw [hrest]
  exact List.mem_cons_self

/-- A name that is printed as it is. -/
theorem escapeName_of_usual {name : Name} (h : ∀ b ∈ name, isUnusual b = false) :
    escapeName name = name.map plainChar := by
  induction name with
  | nil => rfl
  | cons b name ih =>
      have hrest := ih fun k hk => h k (List.mem_cons_of_mem b hk)
      rw [escapeName_cons, escapeByte_of_usual (h b List.mem_cons_self), hrest]
      rfl

/-! ## §4. What stands at the beginning of a printed name. -/

/-- The bytes of a text. -/
def utf8 (cs : List Char) : List UInt8 := cs.flatMap String.utf8EncodeChar

/-- A byte that is not escaped is the only byte of its character. -/
theorem utf8EncodeChar_plainChar {b : UInt8} (h : isUnusual b = false) :
    String.utf8EncodeChar (plainChar b) = [b] := by
  have hbounds := usual_iff.mp h
  have hnat := toNat_plainChar (b := b) (by omega)
  have hle : (plainChar b).val ≤ 0x7f := by
    rw [UInt32.le_iff_toNat_le]
    show (plainChar b).toNat ≤ 0x7f
    omega
  have hsize : (plainChar b).utf8Size = 1 := by
    unfold Char.utf8Size
    exact if_pos hle
  rw [String.utf8EncodeChar_eq_singleton hsize]
  refine congrArg (fun byte => [byte]) (UInt8.toNat_inj.mp ?_)
  show (plainChar b).toNat % 2 ^ 8 = b.toNat
  rw [hnat]
  exact Nat.mod_eq_of_lt b.toNat_lt

/-- Where no backslash can be confused, what begins the escaped name and a slash begins
the name and a slash. -/
theorem utf8_prefix_of_prefix_escapeName {cs : List Char} {name : Name}
    (hescape : ∀ b ∈ name, isUnusual b = true → '\\' ∉ cs)
    (h : cs <+: escapeName name ++ ['/']) : utf8 cs <+: name ++ [0x2f] := by
  induction name generalizing cs with
  | nil =>
      rcases List.prefix_concat_iff.mp h with rfl | hnil
      · exact List.prefix_refl _
      · rw [List.prefix_nil.mp hnil]
        exact List.nil_prefix
  | cons b name ih =>
      cases cs with
      | nil => exact List.nil_prefix
      | cons c cs =>
          have h' : c :: cs <+: escapeByte b ++ (escapeName name ++ ['/']) := by
            rw [← List.append_assoc]
            exact h
          by_cases hb : isUnusual b = true
          · -- the backslash that begins the escape would be one of `cs`
            obtain ⟨rest, hrest, _⟩ := escapeByte_of_unusual hb
            rw [hrest, List.cons_append] at h'
            have hc : c = '\\' := (List.cons_prefix_cons.mp h').1
            exact absurd (hc ▸ List.mem_cons_self) (hescape b List.mem_cons_self hb)
          · have husual : isUnusual b = false := by simpa using hb
            rw [escapeByte_of_usual husual, List.singleton_append] at h'
            obtain ⟨rfl, htail⟩ := List.cons_prefix_cons.mp h'
            have hrest := ih (fun k hk hu hmem => hescape k (List.mem_cons_of_mem b hk) hu
              (List.mem_cons_of_mem _ hmem)) htail
            show String.utf8EncodeChar (plainChar b) ++ utf8 cs <+: b :: (name ++ [0x2f])
            rw [utf8EncodeChar_plainChar husual, List.singleton_append]
            exact List.cons_prefix_cons.mpr ⟨rfl, hrest⟩

/-! ## §5. The arrow in a printed name. -/

theorem infix_of_infix_append {α : Type*} {x : α} {l ds r : List α} (h : x ∉ ds)
    (hl : (x :: l) <:+: ds ++ r) : (x :: l) <:+: r := by
  induction ds with
  | nil => exact hl
  | cons d ds ih =>
      have hne : x ≠ d := fun heq => h (heq ▸ List.mem_cons_self)
      rw [List.cons_append, List.infix_cons_iff] at hl
      cases hl with
      | inl hpre => exact absurd (List.cons_prefix_cons.mp hpre).1 hne
      | inr hrest => exact ih (fun hmem => h (List.mem_cons_of_mem d hmem)) hrest

/-- Characters that are never escaped begin an escaped name only as bytes. -/
theorem isPrefix_of_plain {pat : Name} {name : Name}
    (hpat : ∀ b ∈ pat, isUnusual b = false)
    (h : pat.map plainChar <+: escapeName name) : pat <+: name := by
  induction pat generalizing name with
  | nil => exact List.nil_prefix
  | cons p pat ih =>
      have hp := usual_iff.mp (hpat p List.mem_cons_self)
      have hpnat := toNat_plainChar (b := p) (by omega)
      cases name with
      | nil => exact absurd (List.prefix_nil.mp h) (by simp)
      | cons b name =>
          have h' : plainChar p :: pat.map plainChar <+: escapeByte b ++ escapeName name := h
          by_cases hb : isUnusual b = true
          · obtain ⟨rest, hrest, _⟩ := escapeByte_of_unusual hb
            rw [hrest, List.cons_append] at h'
            have hc := (List.cons_prefix_cons.mp h').1
            rw [hc] at hpnat
            exact absurd hpnat.symm hp.2.2.2
          · have husual : isUnusual b = false := by simpa using hb
            have hbounds := usual_iff.mp husual
            rw [escapeByte_of_usual husual, List.singleton_append] at h'
            obtain ⟨hc, htail⟩ := List.cons_prefix_cons.mp h'
            have hbnat := toNat_plainChar (b := b) (by omega)
            have hpb : p = b := by
              rw [← UInt8.toNat_inj, ← hpnat, ← hbnat, hc]
            exact List.cons_prefix_cons.mpr
              ⟨hpb, ih (fun k hk => hpat k (List.mem_cons_of_mem p hk)) htail⟩

theorem arrow_eq : arrow = arrowBytes.map plainChar := rfl

theorem usual_of_mem_arrowBytes : ∀ b ∈ arrowBytes, isUnusual b = false := by
  intro b hb
  simp only [arrowBytes, List.mem_cons, List.not_mem_nil, or_false] at hb
  rcases hb with rfl | rfl | rfl | rfl <;> rfl

/-- An escaped name has an arrow in it only if the name has one. -/
theorem not_infix_escapeName {name : Name} (h : ¬ arrowBytes <:+: name) :
    ¬ arrow <:+: escapeName name := by
  induction name with
  | nil => exact fun hinf => absurd (List.infix_nil.mp hinf) (by simp [arrow])
  | cons b name ih =>
      have hrest := ih fun hinf => h (hinf.trans (List.suffix_cons b name).isInfix)
      have hnot : ¬ arrow <+: escapeName (b :: name) := by
        intro hpre
        rw [arrow_eq] at hpre
        exact h (isPrefix_of_plain usual_of_mem_arrowBytes hpre).isInfix
      intro hinf
      obtain ⟨c, rest, hc, _⟩ := escapeByte_head b
      have hbyte : escapeName (b :: name) = c :: (rest ++ escapeName name) := by
        rw [escapeName_cons, hc, List.cons_append]
      have hspace : ' ' ∉ rest := by
        by_cases hb : isUnusual b = true
        · obtain ⟨more, hmore, hall⟩ := escapeByte_of_unusual hb
          rw [hc] at hmore
          rw [(List.cons.inj hmore).2]
          exact fun hmem => (hall _ hmem).2 rfl
        · rw [escapeByte_of_usual (by simpa using hb)] at hc
          rw [← (List.cons.inj hc).2]
          simp
      rw [hbyte] at hnot hinf
      rw [List.infix_cons_iff] at hinf
      cases hinf with
      | inl hpre => exact hnot hpre
      | inr htail => exact hrest (infix_of_infix_append hspace htail)

/-- A name that is not quoted has no space in it. -/
theorem space_not_mem_of_not_quoted {name : Name} (h : isQuoted name = false) :
    ' ' ∉ quotePath name := by
  unfold isQuoted at h
  rw [List.any_eq_false] at h
  have husual : ∀ b ∈ name, isUnusual b = false := fun b hb => by
    have := h b hb
    simp at this
    exact this.1
  unfold quotePath
  rw [if_neg (by
    unfold isQuoted
    rw [List.any_eq_true]
    exact fun ⟨b, hb, hq⟩ => h b hb hq), escapeName_of_usual husual]
  intro hmem
  obtain ⟨b, hb, hspace⟩ := List.mem_map.mp hmem
  have hnat := toNat_plainChar (b := b) (by
    have := usual_iff.mp (husual b hb)
    omega)
  rw [hspace] at hnat
  have hbyte : b = 0x20 := UInt8.toNat_inj.mp hnat.symm
  exact h b hb (by simp [hbyte])

theorem not_infix_quotePath {name : Name} (h : ¬ arrowBytes <:+: name) :
    ¬ arrow <:+: quotePath name := by
  by_cases hq : isQuoted name = true
  · have hesc := not_infix_escapeName h
    have hquote : ¬ arrow <:+: '"' :: escapeName name := by
      rw [List.infix_cons_iff]
      rintro (hpre | hinf)
      · exact absurd (List.cons_prefix_cons.mp hpre).1 (by decide)
      · exact hesc hinf
    have heq : quotePath name = ('"' :: escapeName name) ++ ['"'] := if_pos hq
    rw [heq, List.infix_concat_iff]
    rintro (hsuf | hinf)
    · have hlast := List.IsSuffix.getLast hsuf (by simp [arrow])
      rw [List.getLast_concat] at hlast
      exact absurd hlast (by decide)
    · exact hquote hinf
  · have hspace := @space_not_mem_of_not_quoted name (by simpa using hq)
    exact fun hinf => hspace (hinf.subset List.mem_cons_self)

/-! ## §6. Reading a line back. -/

theorem quotePath_ends (name : Name) :
    (∀ c ∈ (quotePath name).head?, c ≠ ' ') ∧ ∀ c ∈ (quotePath name).getLast?, c ≠ ' ' := by
  by_cases hq : isQuoted name = true
  · have heq : quotePath name = ('"' :: escapeName name) ++ ['"'] := if_pos hq
    rw [heq, List.getLast?_concat]
    constructor
    · intro c hc
      rw [← Option.some.inj hc]
      decide
    · intro c hc
      rw [← Option.some.inj hc]
      decide
  · have hspace := @space_not_mem_of_not_quoted name (by simpa using hq)
    exact ⟨fun c hc heq => hspace (heq ▸ List.mem_of_head? hc),
      fun c hc heq => hspace (heq ▸ List.mem_of_getLast? hc)⟩

theorem quotePath_ne_nil {name : Name} (hne : name ≠ []) : quotePath name ≠ [] := by
  obtain ⟨c, rest, hesc, _⟩ := escapeName_head hne
  unfold quotePath
  rw [hesc]
  split <;> simp

namespace Entry

variable (e : Entry)

theorem printable_body : ∀ c ∈ e.body, Printable c := by
  have harrow : ∀ c ∈ arrow, Printable c := by
    intro c hc
    rw [arrow_eq] at hc
    obtain ⟨b, hb, rfl⟩ := List.mem_map.mp hc
    have hbounds := usual_iff.mp (usual_of_mem_arrowBytes b hb)
    unfold Printable
    rw [toNat_plainChar (by omega)]
    omega
  intro c hc
  unfold body at hc
  split at hc
  · rcases List.mem_append.mp hc with hc | hc
    · rcases List.mem_append.mp hc with hc | hc
      · exact printable_quotePath _ c hc
      · exact harrow c hc
    · exact printable_quotePath _ c hc
  · exact printable_quotePath _ c hc

theorem body_ne_nil : e.body ≠ [] := by
  have hpath := quotePath_ne_nil e.path_ne
  unfold body
  split
  · exact List.append_ne_nil_of_right_ne_nil _ hpath
  · exact hpath

/-- No white space stands at an end of the body. -/
theorem body_ends :
    (∀ c ∈ e.body.head?, c ≠ ' ') ∧ ∀ c ∈ e.body.getLast?, c ≠ ' ' := by
  obtain ⟨hfirst, hlast⟩ := quotePath_ends e.path
  unfold body
  split
  next source hsource =>
    have hne := quotePath_ne_nil (e.source_ne source hsource)
    obtain ⟨hhead, _⟩ := quotePath_ends source
    constructor
    · intro c hc
      rw [List.append_assoc, List.head?_append_of_ne_nil _ hne] at hc
      exact hhead c hc
    · intro c hc
      rw [List.getLast?_append_of_ne_nil _ (quotePath_ne_nil e.path_ne)] at hc
      exact hlast c hc
  · exact ⟨hfirst, hlast⟩

theorem trim_body : Str.trimMatches Str.isWhitespace e.body = e.body := by
  obtain ⟨hfirst, hlast⟩ := e.body_ends
  refine Str.trimMatches_self (fun c hc => ?_) fun c hc => ?_
  · exact (e.printable_body c (List.mem_of_head? hc)).not_whitespace (hfirst c hc)
  · exact (e.printable_body c (List.mem_of_getLast? hc)).not_whitespace (hlast c hc)

theorem getFrom_line : Str.getFrom 3 e.line = some e.body := by
  have hsize : ∀ c : StatusCode, c.char.utf8Size = 1 := fun c => by cases c <;> rfl
  have hspace : ' '.utf8Size = 1 := rfl
  simp [line, Str.getFrom, hsize, hspace]

/-- The destination is what follows the last arrow, unless it has an arrow itself. -/
theorem afterLast_body (harrow : ¬ arrowBytes <:+: e.path) :
    Str.afterLast arrow e.body = quotePath e.path := by
  have hpath := not_infix_quotePath harrow
  unfold body
  split
  next source _ =>
    refine Str.afterLast_append fun hinf => hpath ?_
    -- no arrow begins behind the one of the line
    have hstart : ¬ [' ', '-', '>', ' '] <+: ' ' :: quotePath e.path := by
      intro hpre
      have htail := (List.cons_prefix_cons.mp hpre).2
      by_cases hq : isQuoted e.path = true
      · have heq : quotePath e.path = ('"' :: escapeName e.path) ++ ['"'] := if_pos hq
        rw [heq] at htail
        exact absurd (List.cons_prefix_cons.mp htail).1 (by decide)
      · have hspace := @space_not_mem_of_not_quoted e.path (by simpa using hq)
        exact hspace (htail.subset (by simp))
    have hgone := @infix_of_infix_append Char ' ' ['-', '>', ' '] ['-', '>']
      (' ' :: quotePath e.path) (by decide) hinf
    rw [List.infix_cons_iff] at hgone
    exact hgone.resolve_left hstart
  · exact Str.afterLast_of_not_infix hpath

end Entry

theorem lines_porcelain (entries : List Entry) :
    Str.lines (porcelain entries) = entries.map Entry.line := by
  have hflat : entries.flatMap (fun e => e.line ++ ['\n'])
      = (entries.map Entry.line).flatMap (· ++ ['\n']) := by
    rw [List.flatMap_map]
  unfold porcelain
  rw [hflat]
  refine Str.lines_flatMap (fun l hl => ?_) fun l hl => ?_
  · obtain ⟨e, _, rfl⟩ := List.mem_map.mp hl
    have hcode : ∀ c : StatusCode, c.char ≠ '\n' := fun c => by cases c <;> decide
    intro hmem
    simp only [Entry.line, List.mem_cons] at hmem
    rcases hmem with h | h | h | h
    · exact hcode _ h.symm
    · exact hcode _ h.symm
    · exact absurd h (by decide)
    · exact (e.printable_body _ h).ne_newline rfl
  · obtain ⟨e, _, rfl⟩ := List.mem_map.mp hl
    intro hlast
    have hbody : e.body.getLast? = some '\r' := by
      rw [← hlast]
      show _ = ([e.index.char, e.worktree.char, ' '] ++ e.body).getLast?
      rw [List.getLast?_append_of_ne_nil _ e.body_ne_nil]
    exact (e.printable_body _ (List.mem_of_getLast? hbody)).ne_return rfl

/-! ## §7. What a printed name reads as. -/

/-- What is left of a printed name without the quotes around it. -/
def reading (name : Name) : List Char := Str.trimEndMatches (· == '"') (escapeName name)

theorem trimQuotes_quotePath {name : Name} (hne : name ≠ []) :
    Str.trimMatches (· == '"') (quotePath name) = reading name := by
  obtain ⟨c, rest, hesc, hquote⟩ := escapeName_head hne
  have hhead : (escapeName name).dropWhile (· == '"') = escapeName name := by
    rw [hesc]
    exact List.dropWhile_cons_of_neg (by simpa using hquote)
  unfold Str.trimMatches
  by_cases hq : isQuoted name = true
  · have heq : quotePath name = '"' :: (escapeName name ++ ['"']) := if_pos hq
    have hdrop : (quotePath name).dropWhile (· == '"') = escapeName name ++ ['"'] := by
      rw [heq, List.dropWhile_cons_of_pos (by decide), List.dropWhile_append, hhead, if_neg]
      simp [hesc]
    rw [hdrop]
    exact List.rdropWhile_concat_pos _ _ _ (by decide)
  · have heq : quotePath name = escapeName name := if_neg hq
    rw [heq, hhead]
    rfl

theorem reading_ne_nil {name : Name} (hne : name ≠ []) : reading name ≠ [] := by
  obtain ⟨c, rest, hesc, hquote⟩ := escapeName_head hne
  intro hnil
  have hall := List.rdropWhile_eq_nil_iff.mp hnil c (by simp [hesc])
  exact hquote (by simpa using hall)

/-- Only quotes are missing at the end of the reading. -/
theorem mem_reading_of_ne {name : Name} {c : Char} (hc : c ∈ escapeName name) (hne : c ≠ '"') :
    c ∈ reading name := by
  have hsplit : reading name ++ (escapeName name).rtakeWhile (· == '"') = escapeName name :=
    List.rdropWhile_append_rtakeWhile
  rw [← hsplit] at hc
  cases List.mem_append.mp hc with
  | inl h => exact h
  | inr h => exact absurd (by simpa using List.mem_rtakeWhile_imp h) hne

/-- **A directory that begins the reading, or is the reading, begins the name**, unless a
backslash of the directory could stand for a byte of the name. -/
theorem prefix_of_reading {name : Name} {dir : List Char}
    (hescape : ∀ b ∈ name, isUnusual b = true → '\\' ∉ dir)
    (h : dir <+: reading name ∨ reading name ++ ['/'] = dir) : utf8 dir <+: name ++ [0x2f] := by
  refine utf8_prefix_of_prefix_escapeName hescape ?_
  cases h with
  | inl hpre =>
      exact (hpre.trans (List.rdropWhile_prefix _ _)).trans (List.prefix_append _ _)
  | inr heq =>
      have husual : ∀ b ∈ name, isUnusual b = false := by
        intro b hb
        by_contra hunusual
        have hbyte : isUnusual b = true := by simpa using hunusual
        have hmem := mem_reading_of_ne (backslash_mem_escapeName hb hbyte) (by decide)
        exact hescape b hb hbyte (heq ▸ List.mem_append_left _ hmem)
      have hself : reading name = escapeName name := by
        refine List.rdropWhile_eq_self_iff.mpr fun hne hlast => ?_
        have hquote : (escapeName name).getLast hne = '"' := by simpa using hlast
        have hmem : '"' ∈ name.map plainChar := by
          rw [← escapeName_of_usual husual, ← hquote]
          exact List.getLast_mem hne
        obtain ⟨b, hb, hchar⟩ := List.mem_map.mp hmem
        have hbounds := usual_iff.mp (husual b hb)
        have hnat := toNat_plainChar (b := b) (by omega)
        rw [hchar] at hnat
        exact hbounds.2.2.1 hnat.symm
      rw [← heq, hself]

end Jmux.Lib.Porcelain
