/-
  Jmux.Lib.Placeholders — templates, and filling in their placeholders.

  A template is read once, from the left, as characters and placeholders.  Filling
  in all placeholders at once replaces what the template has, and nothing else.
  A text in which only some of them are filled in still has the other ones; it may
  also read as a placeholder in places where the template has none, because of the
  values that were put in.

  Main results:
    * `fill_tokens`  — with nothing filled in, the template itself.
    * `OwnOnly.head` — a text whose placeholders are the template's own, piece
      `OwnOnly.tail`   by piece.
    * `ownOnly_of_checkOwn` — how to check it.
-/
import Mathlib.Data.List.Infix

namespace Jmux.Lib.Placeholders

variable {ι : Type*} [DecidableEq ι] (name value : ι → List Char)

/-! ## §1. Reading a template. -/

inductive Token (ι : Type*)
  | lit (c : Char)
  | hole (i : ι)
  deriving DecidableEq

/-- The characters and placeholders of a template; `skip` characters belong to a
placeholder that has been read. -/
def tokens (order : List ι) : Nat → List Char → List (Token ι)
  | _, [] => []
  | skip + 1, _ :: cs => tokens order skip cs
  | 0, c :: cs =>
      match order.find? fun i => (name i).isPrefixOf (c :: cs) with
      | some i => .hole i :: tokens order ((name i).length - 1) cs
      | none => .lit c :: tokens order 0 cs

/-- A piece of the text in which the placeholders of `filled` are filled in. -/
def piece (filled : List ι) : Token ι → List Char
  | .lit c => [c]
  | .hole i => if i ∈ filled then value i else name i

def fill (filled : List ι) (ts : List (Token ι)) : List Char :=
  ts.flatMap (piece name value filled)

@[simp] theorem fill_nil (filled : List ι) : fill name value filled [] = [] := rfl

@[simp] theorem fill_cons (filled : List ι) (t : Token ι) (ts : List (Token ι)) :
    fill name value filled (t :: ts) = piece name value filled t ++ fill name value filled ts := rfl

@[simp] theorem piece_lit (filled : List ι) (c : Char) :
    piece name value filled (.lit c) = [c] := rfl

theorem piece_hole_of_notMem {filled : List ι} {i : ι} (h : i ∉ filled) :
    piece name value filled (.hole i) = name i := if_neg h

/-- With nothing filled in the pieces make up the template. -/
theorem fill_tokens {order : List ι} (hname : ∀ i ∈ order, name i ≠ []) (skip : Nat)
    (template : List Char) :
    fill name value [] (tokens name order skip template) = template.drop skip := by
  induction template generalizing skip with
  | nil => simp [tokens]
  | cons c cs ih =>
      cases skip with
      | succ skip =>
          rw [tokens, ih]
          rfl
      | zero =>
          rw [tokens]
          cases hfind : order.find? fun i => (name i).isPrefixOf (c :: cs) with
          | none =>
              show c :: fill name value [] (tokens name order 0 cs) = c :: cs
              rw [ih]
              rfl
          | some i =>
              have hprefix : name i <+: c :: cs := by
                have hfound := List.find?_some hfind
                exact List.isPrefixOf_iff_prefix.mp hfound
              obtain ⟨rest, hrest⟩ := hprefix
              have hne := hname i (List.mem_of_find?_eq_some hfind)
              show piece name value [] (.hole i)
                ++ fill name value [] (tokens name order ((name i).length - 1) cs) = c :: cs
              rw [piece_hole_of_notMem name value List.not_mem_nil, ih]
              cases hi : name i with
              | nil => exact absurd hi hne
              | cons d ds =>
                  rw [hi, List.cons_append] at hrest
                  obtain ⟨rfl, rfl⟩ := List.cons.inj hrest
                  simp

/-- One more placeholder is filled in. -/
theorem piece_concat_of_ne {filled : List ι} {i : ι} {t : Token ι} (h : t ≠ .hole i) :
    piece name value (filled ++ [i]) t = piece name value filled t := by
  cases t with
  | lit c => rfl
  | hole j =>
      have hne : j ≠ i := fun heq => h (congrArg Token.hole heq)
      have hmem : j ∈ filled ++ [i] ↔ j ∈ filled := by simp [hne]
      unfold piece
      simp only [hmem]

/-! ## §2. Places that read as a placeholder. -/

/-- Wherever the text reads as the placeholder `i`, the template has it. -/
def OwnOnly (filled : List ι) (i : ι) (ts : List (Token ι)) : Prop :=
  ∀ before after, fill name value filled ts = before ++ name i ++ after →
    ∃ front back, ts = front ++ .hole i :: back ∧ before = fill name value filled front

variable {name value}

/-- Inside of the first piece the text does not read as `i`, unless the piece is `i`. -/
theorem OwnOnly.head {filled : List ι} {i : ι} {t : Token ι} {ts : List (Token ι)}
    (h : OwnOnly name value filled i (t :: ts)) {a b : List Char}
    (hpiece : piece name value filled t = a ++ b) (hb : b ≠ [])
    (hreads : name i <+: b ++ fill name value filled ts) : t = .hole i := by
  obtain ⟨after, hafter⟩ := hreads
  have hoccurs : fill name value filled (t :: ts) = a ++ name i ++ after := by
    rw [fill_cons, hpiece, List.append_assoc, List.append_assoc, hafter]
  obtain ⟨front, back, hsplit, hfront⟩ := h a after hoccurs
  cases front with
  | nil => exact (List.cons.inj hsplit).1
  | cons u front =>
      -- the piece would have to end where it still goes on
      obtain ⟨rfl, _⟩ := List.cons.inj hsplit
      rw [fill_cons, hpiece] at hfront
      have hlen := congrArg List.length hfront
      simp only [List.length_append] at hlen
      have hpos := List.length_pos_iff.mpr hb
      omega

theorem OwnOnly.tail {filled : List ι} {i : ι} {t : Token ι} {ts : List (Token ι)}
    (h : OwnOnly name value filled i (t :: ts)) (hi : i ∉ filled) (hname : name i ≠ []) :
    OwnOnly name value filled i ts := by
  intro before after hreads
  have hoccurs : fill name value filled (t :: ts)
      = (piece name value filled t ++ before) ++ name i ++ after := by
    rw [fill_cons, hreads]
    simp [List.append_assoc]
  obtain ⟨front, back, hsplit, hfront⟩ := h _ after hoccurs
  cases front with
  | nil =>
      have ht : t = .hole i := (List.cons.inj hsplit).1
      rw [fill_nil, List.append_eq_nil_iff, ht, piece_hole_of_notMem name value hi] at hfront
      exact absurd hfront.1 hname
  | cons u front =>
      obtain ⟨rfl, hrest⟩ := List.cons.inj hsplit
      rw [fill_cons] at hfront
      exact ⟨front, back, hrest, List.append_cancel_left hfront⟩

variable (name value)

/-- The text reads as `i` at the beginning of the pieces that are this placeholder,
and nowhere else. -/
def checkOwn (filled : List ι) (i : ι) : List (Token ι) → Bool
  | [] => true
  | t :: ts =>
      ((piece name value filled t).tails.all fun b =>
        b == [] || !(name i).isPrefixOf (b ++ fill name value filled ts)
          || (t == .hole i && b == piece name value filled t))
        && checkOwn filled i ts

variable {name value}

theorem ownOnly_of_checkOwn {filled : List ι} {i : ι} (hname : name i ≠ [])
    {ts : List (Token ι)} (h : checkOwn name value filled i ts = true) :
    OwnOnly name value filled i ts := by
  induction ts with
  | nil =>
      intro before after hreads
      have hnil : before ++ name i ++ after = [] := hreads.symm
      simp [hname] at hnil
  | cons t ts ih =>
      rw [checkOwn, Bool.and_eq_true, List.all_eq_true] at h
      obtain ⟨hpiece, hrest⟩ := h
      intro before after hreads
      rw [fill_cons, List.append_assoc, List.append_eq_append_iff] at hreads
      rcases hreads with ⟨mid, rfl, hmid⟩ | ⟨b, hb, hafter⟩
      · -- behind the piece
        obtain ⟨front, back, hsplit, hfront⟩ := ih hrest mid after (by rw [hmid, List.append_assoc])
        exact ⟨t :: front, back, by rw [hsplit]; rfl, by rw [fill_cons, hfront]⟩
      · by_cases hnil : b = []
        · subst hnil
          rw [List.append_nil] at hb
          obtain ⟨front, back, hsplit, hfront⟩ :=
            ih hrest [] after (by rw [← List.nil_append (fill name value filled ts), ← hafter]; simp)
          exact ⟨t :: front, back, by rw [hsplit]; rfl, by rw [fill_cons, ← hfront, List.append_nil, hb]⟩
        · have hmem : b ∈ (piece name value filled t).tails :=
            (List.mem_tails _ _).mpr ⟨before, hb.symm⟩
          have hstarts : (name i).isPrefixOf (b ++ fill name value filled ts) = true :=
            List.isPrefixOf_iff_prefix.mpr ⟨after, hafter⟩
          have hat := hpiece b hmem
          simp only [hstarts, Bool.not_true, Bool.or_false, Bool.or_eq_true, beq_iff_eq, hnil,
            false_or, Bool.and_eq_true] at hat
          obtain ⟨rfl, hwhole⟩ := hat
          have hbefore : before = [] := by
            rw [hwhole] at hb
            exact List.self_eq_append_left.mp hb
          exact ⟨[], ts, rfl, hbefore⟩

end Jmux.Lib.Placeholders
