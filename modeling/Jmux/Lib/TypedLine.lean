/-
  Jmux.Lib.TypedLine — texts that are typed into a terminal as one line.

  A carriage return submits what stands before it, and so does a line feed; other
  control characters are commands of the terminal.  A text is typed as one line
  when a carriage return ends it and no control character stands before that.

  Main results:
    * `plain_intercalate_iff` — a joined text has no control character exactly
                                 when no part has one.
    * `oneLine_return_iff`    — a text with a return after it is one line exactly
                                 when it has no control character.
-/
import Jmux.Lib.Str

namespace Jmux.Lib.TypedLine

/-! ## §1. Control characters. -/

/-- `char::is_control`: the general category `Cc`. -/
def isControl (c : Char) : Bool :=
  decide (c.toNat < 0x20) || (decide (0x7F ≤ c.toNat) && decide (c.toNat < 0xA0))

/-- No control character. -/
def Plain (cs : List Char) : Prop := ∀ c ∈ cs, isControl c = false

theorem plain_nil : Plain [] := fun _ h => absurd h List.not_mem_nil

theorem plain_append_iff (as bs : List Char) : Plain (as ++ bs) ↔ Plain as ∧ Plain bs :=
  List.forall_mem_append

theorem Plain.of_subset {as bs : List Char} (h : Plain bs) (hsub : as ⊆ bs) : Plain as :=
  fun c hc => h c (hsub hc)

/-- For a closed text. -/
theorem plain_of_all {cs : List Char} (h : cs.all (fun c => !isControl c) = true) : Plain cs := by
  intro c hc
  have hno := List.all_eq_true.mp h c hc
  simpa using hno

theorem not_plain_of_mem {cs : List Char} {c : Char} (hc : c ∈ cs) (hcontrol : isControl c = true) :
    ¬ Plain cs := by
  intro h
  rw [h c hc] at hcontrol
  cases hcontrol

/-- A number is written in digits. -/
theorem plain_toString (n : Nat) : Plain (toString n).toList := by
  intro c hc
  have hmem : c ∈ Nat.toDigits 10 n := by
    have hrepr : (toString n).toList = Nat.toDigits 10 n := by
      show (Nat.repr n).toList = _
      rw [Nat.repr, String.toList_ofList]
    rwa [hrepr] at hc
  have hdigit := Nat.isDigit_of_mem_toDigits (by decide) (by decide) hmem
  have hrange : 48 ≤ c.toNat ∧ c.toNat ≤ 57 := by
    simp only [Char.isDigit, Bool.and_eq_true, decide_eq_true_eq] at hdigit
    exact ⟨UInt32.le_iff_toNat_le.mp hdigit.1, UInt32.le_iff_toNat_le.mp hdigit.2⟩
  have hlow : ¬ c.toNat < 0x20 := by omega
  have hhigh : ¬ 0x7F ≤ c.toNat := by omega
  simp [isControl, hlow, hhigh]

/-! ## §2. Parts. -/

/-- A joined text has no control character exactly when no part has one. -/
theorem plain_intercalate_iff {sep : List Char} (hsep : Plain sep) (parts : List (List Char)) :
    Plain (sep.intercalate parts) ↔ ∀ p ∈ parts, Plain p :=
  Str.forall_mem_intercalate_iff hsep parts

theorem Plain.splitOnP {cs : List Char} (h : Plain cs) (p : Char → Bool) :
    ∀ w ∈ cs.splitOnP p, Plain w := by
  induction cs with
  | nil =>
      intro w hw
      rw [List.splitOnP_nil] at hw
      rw [List.mem_singleton.mp hw]
      exact plain_nil
  | cons c cs ih =>
      have hrest := ih fun d hd => h d (List.mem_cons_of_mem c hd)
      intro w hw
      rw [List.splitOnP_cons_eq_if_modifyHead] at hw
      split at hw
      · rcases List.mem_cons.mp hw with rfl | hw
        · exact plain_nil
        · exact hrest w hw
      · cases hparts : cs.splitOnP p with
        | nil => exact absurd hparts (List.splitOnP_ne_nil p cs)
        | cons first parts =>
            rw [hparts] at hw hrest
            rcases List.mem_cons.mp hw with rfl | hw
            · -- the first word goes on with `c`
              intro d hd
              rcases List.mem_cons.mp hd with rfl | hd
              · exact h d List.mem_cons_self
              · exact hrest first List.mem_cons_self d hd
            · exact hrest w (List.mem_cons_of_mem first hw)

/-! ## §3. One line. -/

/-- Typed as one line. -/
def OneLine (text : List Char) : Prop := ∃ line, text = line ++ ['\r'] ∧ Plain line

theorem oneLine_return_iff (line : List Char) : OneLine (line ++ ['\r']) ↔ Plain line := by
  constructor
  · rintro ⟨other, heq, hplain⟩
    rw [List.append_cancel_right heq]
    exact hplain
  · intro hplain
    exact ⟨line, rfl, hplain⟩

end Jmux.Lib.TypedLine
