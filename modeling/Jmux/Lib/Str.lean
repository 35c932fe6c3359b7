/-
  Jmux.Lib.Str — the string operations of the Rust standard library that the
  modelled code calls, over lists of characters.

  Only documented behaviour is modelled: `trim` removes Unicode `White_Space`,
  `lines` drops the line terminators and a final empty line, `get(n..)` counts
  bytes and fails off a character boundary, `rsplit(sep).next()` is the part
  after the last separator.
-/
import Mathlib.Algebra.Group.Int.Defs
import Mathlib.Data.List.DropRight
import Mathlib.Data.List.Infix
import Mathlib.Data.String.Basic

namespace Jmux.Lib.Str

/-! ## §1. Trimming. -/

/-- `char::is_whitespace`: the Unicode property `White_Space`. -/
def isWhitespace (c : Char) : Bool :=
  let n := c.toNat
  (9 ≤ n && n ≤ 13) || n == 0x20 || n == 0x85 || n == 0xA0 || n == 0x1680
    || (0x2000 ≤ n && n ≤ 0x200A) || n == 0x2028 || n == 0x2029 || n == 0x202F
    || n == 0x205F || n == 0x3000

/-- Drop the trailing characters that satisfy `p` (`trim_end_matches`). -/
def trimEndMatches (p : Char → Bool) (cs : List Char) : List Char := cs.rdropWhile p

/-- Drop the characters that satisfy `p` on both sides (`trim_matches`). -/
def trimMatches (p : Char → Bool) (cs : List Char) : List Char :=
  trimEndMatches p (cs.dropWhile p)

/-- `str::trim`. -/
def trim (s : String) : String := String.ofList (trimMatches isWhitespace s.toList)

/-- `str::starts_with`. -/
def startsWith (s pre : String) : Bool := pre.toList.isPrefixOf s.toList

/-- The end of a text is trimmed first. -/
theorem trimEndMatches_append (p : Char → Bool) (as bs : List Char) :
    trimEndMatches p (as ++ bs)
      = if trimEndMatches p bs = [] then trimEndMatches p as else as ++ trimEndMatches p bs := by
  unfold trimEndMatches List.rdropWhile
  rw [List.reverse_append, List.dropWhile_append]
  by_cases h : bs.reverse.dropWhile p = []
  · rw [h]
    rfl
  · have hne : (bs.reverse.dropWhile p).reverse ≠ [] := fun hr => h (List.reverse_eq_nil_iff.mp hr)
    rw [if_neg (by simpa using h), if_neg hne, List.reverse_append, List.reverse_reverse]

theorem trimEndMatches_self {p : Char → Bool} {cs : List Char} (hne : cs ≠ [])
    (hlast : p (cs.getLast hne) = false) : trimEndMatches p cs = cs := by
  unfold trimEndMatches
  rw [List.rdropWhile_eq_self_iff]
  intro _
  rw [hlast]
  exact Bool.false_ne_true

/-- It does not matter which side is trimmed first. -/
theorem trimMatches_comm (p : Char → Bool) (cs : List Char) :
    trimMatches p cs = (trimEndMatches p cs).dropWhile p := by
  unfold trimMatches
  induction cs with
  | nil => rfl
  | cons c cs ih =>
      have hcons := trimEndMatches_append p [c] cs
      rw [List.singleton_append] at hcons
      by_cases hc : p c = true
      · rw [List.dropWhile_cons_of_pos hc, ih, hcons]
        split
        next hnil =>
          have hone : trimEndMatches p [c] = [] := by
            unfold trimEndMatches
            rw [List.rdropWhile_singleton, if_pos hc]
          rw [hnil, hone]
        · rw [List.singleton_append, List.dropWhile_cons_of_pos hc]
      · rw [List.dropWhile_cons_of_neg hc, hcons]
        split
        · have hone : trimEndMatches p [c] = [c] := by
            unfold trimEndMatches
            rw [List.rdropWhile_singleton, if_neg hc]
          rw [hone, List.dropWhile_cons_of_neg hc]
        · rw [List.singleton_append, List.dropWhile_cons_of_neg hc]

/-- A text that was trimmed at the end can be trimmed. -/
theorem trimMatches_trimEndMatches (p : Char → Bool) (cs : List Char) :
    trimMatches p (trimEndMatches p cs) = trimMatches p cs := by
  have htwice : trimEndMatches p (trimEndMatches p cs) = trimEndMatches p cs :=
    List.rdropWhile_idempotent p cs
  rw [trimMatches_comm, trimMatches_comm, htwice]

theorem trimMatches_idem (p : Char → Bool) (cs : List Char) :
    trimMatches p (trimMatches p cs) = trimMatches p cs := by
  have hfront : (trimMatches p cs).dropWhile p = trimMatches p cs := by
    rw [trimMatches_comm]
    exact List.dropWhile_idempotent p _
  have hback : trimEndMatches p (trimMatches p cs) = trimMatches p cs :=
    List.rdropWhile_idempotent p _
  calc trimMatches p (trimMatches p cs)
      = trimEndMatches p ((trimMatches p cs).dropWhile p) := rfl
    _ = trimMatches p cs := by rw [hfront, hback]

theorem trimMatches_isInfix (p : Char → Bool) (cs : List Char) : trimMatches p cs <:+: cs :=
  (List.rdropWhile_prefix p _).isInfix.trans (List.dropWhile_suffix p).isInfix

theorem mem_of_mem_trimMatches {p : Char → Bool} {cs : List Char} {c : Char}
    (h : c ∈ trimMatches p cs) : c ∈ cs :=
  (trimMatches_isInfix p cs).subset h

/-- What is not trimmed on either side is not changed. -/
theorem trimMatches_self {p : Char → Bool} {cs : List Char}
    (hhead : ∀ c ∈ cs.head?, p c = false) (hlast : ∀ c ∈ cs.getLast?, p c = false) :
    trimMatches p cs = cs := by
  cases cs with
  | nil => rfl
  | cons c cs =>
      have hc : ¬ p c = true := by simp [hhead c rfl]
      unfold trimMatches
      rw [List.dropWhile_cons_of_neg hc]
      refine trimEndMatches_self (List.cons_ne_nil c cs) (hlast _ ?_)
      exact List.getLast?_eq_some_getLast _

/-- Exactly what has nothing to trim at its ends is not changed. -/
theorem trimMatches_eq_self_iff {p : Char → Bool} {cs : List Char} :
    trimMatches p cs = cs ↔ (∀ c ∈ cs.head?, p c = false) ∧ ∀ c ∈ cs.getLast?, p c = false := by
  constructor
  · intro h
    constructor
    · intro c hc
      by_contra hp
      have hlen : (trimMatches p cs).length ≤ (cs.dropWhile p).length :=
        (List.rdropWhile_prefix p _).length_le
      cases cs with
      | nil => simp at hc
      | cons d cs =>
          obtain rfl : d = c := by simpa using hc
          rw [h, List.dropWhile_cons_of_pos (by simpa using hp)] at hlen
          have hshort := (List.dropWhile_suffix (l := cs) p).length_le
          simp only [List.length_cons] at hlen
          omega
    · intro c hc
      have hend : trimEndMatches p cs = cs := by
        have hlen : (trimMatches p cs).length ≤ (trimEndMatches p cs).length := by
          rw [trimMatches_comm]
          exact (List.dropWhile_suffix p).length_le
        rw [h] at hlen
        exact (List.rdropWhile_prefix p cs).sublist.eq_of_length_le hlen
      have hne : cs ≠ [] := fun hnil => by simp [hnil] at hc
      have hlast := List.rdropWhile_eq_self_iff.mp hend hne
      rw [List.getLast?_eq_some_getLast hne] at hc
      obtain rfl := Option.some.inj hc
      simpa using hlast
  · rintro ⟨hhead, hlast⟩
    exact trimMatches_self hhead hlast

/-- Trimming leaves nothing exactly of what is trimmed throughout. -/
theorem trimMatches_eq_nil_iff {p : Char → Bool} {cs : List Char} :
    trimMatches p cs = [] ↔ ∀ c ∈ cs, p c = true := by
  unfold trimMatches trimEndMatches
  rw [List.rdropWhile_eq_nil_iff]
  constructor
  · intro h
    have hall : cs.dropWhile p = [] := by
      by_contra hne
      have hhead := List.head_dropWhile_not p hne
      rw [h _ (List.head_mem hne)] at hhead
      exact nomatch hhead
    exact List.dropWhile_eq_nil_iff.mp hall
  · intro h c hc
    exact h c ((List.dropWhile_sublist _).subset hc)

theorem trim_eq_empty_iff (s : String) :
    trim s = "" ↔ ∀ c ∈ s.toList, isWhitespace c = true := by
  rw [← trimMatches_eq_nil_iff]
  unfold trim
  constructor
  · intro h
    have := congrArg String.toList h
    simpa using this
  · intro h
    rw [h]

/-! ## §2. Cutting. -/

/-- `str::get(n..)`: `none` when byte `n` is not on a character boundary. -/
def getFrom : Nat → List Char → Option (List Char)
  | 0, cs => some cs
  | _ + 1, [] => none
  | n + 1, c :: cs => if c.utf8Size ≤ n + 1 then getFrom (n + 1 - c.utf8Size) cs else none

/-- One `\r` at the end belongs to the line terminator. -/
def dropCarriageReturn (line : List Char) : List Char :=
  if line.getLast? = some '\r' then line.dropLast else line

/-- `str::lines`; a last line that no newline ends is left as it is. -/
def lines (s : String) : List (List Char) :=
  let parts := s.toList.splitOn '\n'
  parts.dropLast.map dropCarriageReturn ++ (parts.getLast?.filter (· ≠ [])).toList

/-- `str::split_whitespace`. -/
def splitWhitespace (cs : List Char) : List (List Char) :=
  (cs.splitOnP isWhitespace).filter (· ≠ [])

/-- The part after the last occurrence of `sep`, or everything (`rsplit(sep).next()`). -/
def afterLast (sep : List Char) (cs : List Char) : List Char :=
  ((cs.tails.filter (sep.isPrefixOf ·)).getLast?.map (·.drop sep.length)).getD cs

/-- `str::strip_prefix`. -/
def stripPrefix (pre cs : List Char) : Option (List Char) :=
  if pre.isPrefixOf cs then some (cs.drop pre.length) else none

/-- `str::strip_suffix`. -/
def stripSuffix (suf cs : List Char) : Option (List Char) :=
  if suf.isSuffixOf cs then some (cs.take (cs.length - suf.length)) else none

/-- `str::contains`. -/
def contains (needle cs : List Char) : Bool := cs.tails.any (needle.isPrefixOf ·)

/-! ## §3. Reading characters as something else. -/

/-- `char::to_ascii_lowercase`. -/
def toAsciiLowercase (c : Char) : Char :=
  if 'A' ≤ c ∧ c ≤ 'Z' then Char.ofNat (c.toNat + 32) else c

/-- Below the surrogates every number is a character. -/
theorem toNat_ofNat {n : Nat} (h : n < 0xd800) : (Char.ofNat n).toNat = n := by
  have hvalid : n.isValidChar := .inl h
  unfold Char.ofNat
  rw [dif_pos hvalid]
  rfl

theorem toNat_toAsciiLowercase (c : Char) : (toAsciiLowercase c).toNat =
    if 65 ≤ c.toNat ∧ c.toNat ≤ 90 then c.toNat + 32 else c.toNat := by
  have hrange : ('A' ≤ c ∧ c ≤ 'Z') ↔ 65 ≤ c.toNat ∧ c.toNat ≤ 90 := Iff.rfl
  unfold toAsciiLowercase
  by_cases h : 65 ≤ c.toNat ∧ c.toNat ≤ 90
  · rw [if_pos (hrange.mpr h), if_pos h]
    exact toNat_ofNat (by omega)
  · rw [if_neg (hrange.not.mpr h), if_neg h]

/-- `str::to_lowercase`, as far as a search for ASCII text can tell: the ASCII
letters, and the two other letters whose lower case has an ASCII letter in it. -/
def toLowercase (cs : List Char) : List Char :=
  cs.flatMap fun c =>
    if c = '\u212A' then ['k']
    else if c = '\u0130' then ['i', '\u0307']
    else [toAsciiLowercase c]

/-- `char::is_ascii_alphanumeric`. -/
def isAsciiAlphanumeric (c : Char) : Bool :=
  ('0' ≤ c && c ≤ '9') || ('a' ≤ c && c ≤ 'z') || ('A' ≤ c && c ≤ 'Z')

theorem toNat_of_isAsciiAlphanumeric {c : Char} (h : isAsciiAlphanumeric c = true) :
    c.toNat < 128 := by
  unfold isAsciiAlphanumeric at h
  simp only [Bool.or_eq_true, Bool.and_eq_true, decide_eq_true_eq] at h
  have hle : ∀ d : Char, c ≤ d → c.toNat ≤ d.toNat := fun d hd => hd
  rcases h with (⟨-, hdigit⟩ | ⟨-, hlower⟩) | ⟨-, hupper⟩
  · have hnine : c.toNat ≤ 57 := hle '9' hdigit
    omega
  · have hz : c.toNat ≤ 122 := hle 'z' hlower
    omega
  · have hz : c.toNat ≤ 90 := hle 'Z' hupper
    omega

/-- The decimal digits of `cs` as a number, on top of `acc`. -/
def digits : Nat → List Char → Option Nat
  | acc, [] => some acc
  | acc, c :: cs =>
      if '0' ≤ c ∧ c ≤ '9' then digits (acc * 10 + (c.toNat - '0'.toNat)) cs else none

/-- `str::parse::<u32>`: an optional `+`, at least one digit, no overflow. -/
def parseU32 (cs : List Char) : Option Nat :=
  let body := (stripPrefix ['+'] cs).getD cs
  if body = [] then none else (digits 0 body).filter (· < 2 ^ 32)

/-- `str::parse::<usize>` on a 64-bit machine. -/
def parseUsize (cs : List Char) : Option Nat :=
  let body := (stripPrefix ['+'] cs).getD cs
  if body = [] then none else (digits 0 body).filter (· < 2 ^ 64)

/-- `str::parse::<i64>`. -/
def parseI64 (cs : List Char) : Option Int :=
  match stripPrefix ['-'] cs with
  | some body =>
      if body = [] then none
      else ((digits 0 body).map fun n => -(n : Int)).filter fun n => decide (-2 ^ 63 ≤ n)
  | none => ((parseUsize cs).map fun n => (n : Int)).filter fun n => decide (n < 2 ^ 63)

theorem parseU32_lt {cs : List Char} {n : Nat} (h : parseU32 cs = some n) : n < 2 ^ 32 := by
  unfold parseU32 at h
  dsimp only at h
  split at h
  · cases h
  · simpa using (Option.filter_eq_some_iff.mp h).2

theorem parseUsize_lt {cs : List Char} {n : Nat} (h : parseUsize cs = some n) : n < 2 ^ 64 := by
  unfold parseUsize at h
  dsimp only at h
  split at h
  · cases h
  · exact of_decide_eq_true (Option.filter_eq_some_iff.mp h).2

theorem parseI64_range {cs : List Char} {n : Int} (h : parseI64 cs = some n) :
    -2 ^ 63 ≤ n ∧ n < 2 ^ 63 := by
  unfold parseI64 at h
  split at h
  · split at h
    · cases h
    · obtain ⟨hmap, hlow⟩ := Option.filter_eq_some_iff.mp h
      obtain ⟨m, hm, rfl⟩ := Option.map_eq_some_iff.mp hmap
      obtain ⟨k, _, hk⟩ := Option.bind_eq_some_iff.mp hm
      have hcast : (k : Int) = m := Option.some.inj hk
      exact ⟨of_decide_eq_true hlow, by omega⟩
  · obtain ⟨hmap, hhigh⟩ := Option.filter_eq_some_iff.mp h
    obtain ⟨m, hm, rfl⟩ := Option.map_eq_some_iff.mp hmap
    obtain ⟨k, _, hk⟩ := Option.bind_eq_some_iff.mp hm
    have hcast : (k : Int) = m := Option.some.inj hk
    exact ⟨by omega, of_decide_eq_true hhigh⟩

/-! ## §4. Cutting at the last separator is unambiguous. -/

/-- Two texts that end in a separator-free part after the same separator agree
part by part. -/
theorem append_cons_inj_of_notMem {α : Type*} {sep : α} :
    ∀ {as bs xs ys : List α}, sep ∉ xs → sep ∉ ys →
      as ++ sep :: xs = bs ++ sep :: ys → as = bs ∧ xs = ys
  | [], [], xs, ys, _, _, h => by
      simpa using h
  | [], b :: bs, xs, ys, hx, _, h => by
      obtain ⟨rfl, rfl⟩ := List.cons.inj h
      simp at hx
  | a :: as, [], xs, ys, _, hy, h => by
      obtain ⟨rfl, rfl⟩ := List.cons.inj h
      simp at hy
  | a :: as, b :: bs, xs, ys, hx, hy, h => by
      obtain ⟨rfl, h'⟩ := List.cons.inj h
      obtain ⟨rfl, rfl⟩ := append_cons_inj_of_notMem hx hy h'
      exact ⟨rfl, rfl⟩

/-! ## §5. Joining. -/

/-- What holds of every character of the separator holds of every character of a joined text
exactly when it does so in each part. -/
theorem forall_mem_intercalate_iff {α : Type*} {P : α → Prop} {sep : List α}
    (hsep : ∀ c ∈ sep, P c) (parts : List (List α)) :
    (∀ c ∈ sep.intercalate parts, P c) ↔ ∀ p ∈ parts, ∀ c ∈ p, P c := by
  induction parts with
  | nil =>
      rw [List.intercalate_nil]
      simp
  | cons p rest ih =>
      cases rest with
      | nil =>
          rw [List.intercalate_singleton]
          simp
      | cons q rest =>
          rw [List.intercalate_cons_cons, List.forall_mem_append, List.forall_mem_append, ih]
          constructor
          · rintro ⟨⟨hp, _⟩, hrest⟩
            exact List.forall_mem_cons.mpr ⟨hp, hrest⟩
          · intro h
            obtain ⟨hp, hrest⟩ := List.forall_mem_cons.mp h
            exact ⟨⟨hp, hsep⟩, hrest⟩

/-! ## §6. What is cut off at the last separator, at blanks and at the newlines. -/

theorem afterLast_of_not_infix {sep cs : List Char} (h : ¬ sep <:+: cs) :
    afterLast sep cs = cs := by
  have hnone : cs.tails.filter (sep.isPrefixOf ·) = [] := by
    rw [List.filter_eq_nil_iff]
    intro t ht hpre
    exact h ((List.isPrefixOf_iff_prefix.mp hpre).isInfix.trans
      ((List.mem_tails t cs).mp ht).isInfix)
  unfold afterLast
  rw [hnone]
  rfl

/-- The last separator is the one that no other one begins behind. -/
theorem afterLast_append {c : Char} {sep as bs : List Char} (h : ¬ (c :: sep) <:+: sep ++ bs) :
    afterLast (c :: sep) (as ++ (c :: sep) ++ bs) = bs := by
  have hlast : ((as ++ (c :: sep) ++ bs).tails.filter ((c :: sep).isPrefixOf ·)).getLast?
      = some ((c :: sep) ++ bs) := by
    induction as with
    | nil =>
        have hnone : (sep ++ bs).tails.filter ((c :: sep).isPrefixOf ·) = [] := by
          rw [List.filter_eq_nil_iff]
          intro t ht hpre
          exact h ((List.isPrefixOf_iff_prefix.mp hpre).isInfix.trans
            ((List.mem_tails t _).mp ht).isInfix)
        have hself : (c :: sep).isPrefixOf (c :: (sep ++ bs)) = true :=
          List.isPrefixOf_iff_prefix.mpr (List.prefix_append (c :: sep) bs)
        show (((c :: (sep ++ bs)).tails).filter ((c :: sep).isPrefixOf ·)).getLast? = _
        rw [List.tails_cons, List.filter_cons_of_pos hself, hnone]
        rfl
    | cons a as ih =>
        show (((a :: (as ++ (c :: sep) ++ bs)).tails).filter ((c :: sep).isPrefixOf ·)).getLast? = _
        rw [List.tails_cons, List.filter_cons]
        split
        · rw [List.getLast?_cons, ih]
          rfl
        · exact ih
  unfold afterLast
  rw [hlast]
  show List.drop (c :: sep).length ((c :: sep) ++ bs) = bs
  rw [List.drop_left]

theorem splitOn_line {α : Type*} [BEq α] [LawfulBEq α] {sep : α} {line : List α} (h : sep ∉ line)
    (rest : List α) :
    (line ++ sep :: rest).splitOn sep = line :: rest.splitOn sep := by
  rw [List.splitOn_eq_splitOnP, List.splitOn_eq_splitOnP]
  refine List.splitOnP_append_cons_of_forall_mem (fun c hc => ?_) sep (by simp) rest
  have hne : c ≠ sep := fun heq => h (heq ▸ hc)
  simpa using hne

theorem splitWhitespace_word {word : List Char} (hne : word ≠ [])
    (h : ∀ c ∈ word, isWhitespace c = false) : splitWhitespace word = [word] := by
  unfold splitWhitespace
  rw [List.splitOnP_eq_singleton h]
  simp [hne]

theorem splitWhitespace_append {blank : Char} (h : isWhitespace blank = true) (as bs : List Char) :
    splitWhitespace (as ++ blank :: bs) = splitWhitespace as ++ splitWhitespace bs := by
  unfold splitWhitespace
  rw [List.splitOnP_append_cons as bs h, List.filter_append]

/-- Blanks on either side of a text are no words. -/
theorem splitWhitespace_trimMatches (cs : List Char) :
    splitWhitespace (trimMatches isWhitespace cs) = splitWhitespace cs := by
  have hstart : ∀ cs : List Char,
      splitWhitespace (cs.dropWhile isWhitespace) = splitWhitespace cs := by
    intro cs
    induction cs with
    | nil => rfl
    | cons c cs ih =>
        cases hc : isWhitespace c with
        | false => rw [List.dropWhile_cons_of_neg (by simp [hc])]
        | true =>
            rw [List.dropWhile_cons_of_pos hc, ih]
            exact (splitWhitespace_append hc [] cs).symm
  have hend : ∀ cs : List Char,
      splitWhitespace (trimEndMatches isWhitespace cs) = splitWhitespace cs := by
    intro cs
    unfold trimEndMatches
    induction cs using List.reverseRecOn with
    | nil => rfl
    | append_singleton cs c ih =>
        cases hc : isWhitespace c with
        | false => rw [List.rdropWhile_concat_neg _ _ _ (by simp [hc])]
        | true =>
            rw [List.rdropWhile_concat_pos _ _ _ hc, ih, splitWhitespace_append hc]
            exact (List.append_nil _).symm
  unfold trimMatches
  rw [hend, hstart]

/-- A text of lines that end in a newline has just these lines. -/
theorem lines_flatMap {lines' : List (List Char)} (hline : ∀ l ∈ lines', '\n' ∉ l)
    (hreturn : ∀ l ∈ lines', l.getLast? ≠ some '\r') :
    lines (String.ofList (lines'.flatMap (· ++ ['\n']))) = lines' := by
  have hsplit : (lines'.flatMap (· ++ ['\n'])).splitOn '\n' = lines' ++ [[]] := by
    clear hreturn
    induction lines' with
    | nil => rfl
    | cons l rest ih =>
        rw [List.flatMap_cons, List.append_assoc, List.singleton_append,
          splitOn_line (hline l (by simp)), ih fun k hk => hline k (by simp [hk])]
        rfl
  have hkept : lines'.map dropCarriageReturn = lines' := by
    refine (List.map_congr_left fun l hl => ?_).trans (List.map_id _)
    unfold dropCarriageReturn
    rw [if_neg (hreturn l hl)]
    rfl
  unfold lines
  simp only [String.toList_ofList, hsplit, List.dropLast_concat, List.getLast?_concat]
  rw [hkept]
  exact List.append_nil lines'

end Jmux.Lib.Str
