/-
  Jmux.Lib.Transition — partial step functions, their runs and their invariants.

  A system is a step function `σ → α → Option σ`: `none` says that the action
  is not enabled in the state.  Everything is parametric in the state, the
  action and a side condition `ok` on (state before, action), so that "in every
  run whose steps all meet the condition" is one instance and "in every run" is
  another (`ok := Anything`).

  Main results:
    * `Reach.invariant`           — an invariant kept by every `ok` step holds
                                     in every state that `ok` steps reach.
    * `reach_of_exec`             — an executed action list is such a run.
    * `everyState_iff_everyStep`  — when a step keeps `P` exactly if it is `ok`,
                                     a run keeps `P` throughout exactly if each
                                     of its steps is `ok`.
    * `since_iff`                 — when a step makes `P` true exactly if it
                                     `sets` it, or `P` was true and it `keeps` it,
                                     `P` holds after a run exactly if some step
                                     has set it and all later ones have kept it.
-/
import Mathlib.Data.List.Induction
import Mathlib.Data.Option.Basic

namespace Jmux.Lib

variable {σ α : Type*} {step : σ → α → Option σ} {ok : σ → α → Prop}

/-! ## §1. Executing a list of actions. -/

/-- Perform the actions in order; `none` as soon as one of them is not enabled. -/
def exec (step : σ → α → Option σ) : σ → List α → Option σ
  | s, [] => some s
  | s, a :: as => (step s a).bind (exec step · as)

theorem exec_cons {s s' : σ} {a : α} {as : List α} :
    exec step s (a :: as) = some s' ↔ ∃ m, step s a = some m ∧ exec step m as = some s' := by
  simp only [exec, Option.bind_eq_some_iff]

/-- A run of `as ++ bs` is a run of `as` followed by a run of `bs`. -/
theorem exec_append {s s' : σ} {as bs : List α} :
    exec step s (as ++ bs) = some s' ↔
      ∃ m, exec step s as = some m ∧ exec step m bs = some s' := by
  induction as generalizing s with
  | nil => simp [exec]
  | cons a as ih =>
      simp only [List.cons_append, exec_cons, ih]
      constructor
      · rintro ⟨m, ha, k, has, hbs⟩
        exact ⟨k, ⟨m, ha, has⟩, hbs⟩
      · rintro ⟨k, ⟨m, ha, has⟩, hbs⟩
        exact ⟨m, ha, k, has, hbs⟩

/-- A system whose actions are always enabled performs every list of them. -/
theorem exec_total (htotal : ∀ s a, ∃ s', step s a = some s') (s : σ) (as : List α) :
    ∃ s', exec step s as = some s' := by
  induction as generalizing s with
  | nil => exact ⟨s, rfl⟩
  | cons a as ih =>
      obtain ⟨m, ha⟩ := htotal s a
      obtain ⟨s', has⟩ := ih m
      exact ⟨s', exec_cons.mpr ⟨m, ha, has⟩⟩

/-! ## §2. Reachability by steps that meet a condition. -/

/-- No condition on the steps. -/
def Anything (_ : σ) (_ : α) : Prop := True

/-- The states that `ok` steps reach from `s₀`. -/
inductive Reach (step : σ → α → Option σ) (ok : σ → α → Prop) (s₀ : σ) : σ → Prop
  | start : Reach step ok s₀ s₀
  | next {s s' : σ} {a : α} :
      Reach step ok s₀ s → ok s a → step s a = some s' → Reach step ok s₀ s'

/-- The states that any steps reach from `s₀`. -/
abbrev Reachable (step : σ → α → Option σ) (s₀ : σ) : σ → Prop := Reach step Anything s₀

/-- **The invariant rule**: what holds at the start and is kept by every `ok`
step holds in every state that `ok` steps reach. -/
theorem Reach.invariant {s₀ s : σ} (Inv : σ → Prop) (h0 : Inv s₀)
    (hstep : ∀ s a s', Inv s → ok s a → step s a = some s' → Inv s')
    (hr : Reach step ok s₀ s) : Inv s := by
  induction hr with
  | start => exact h0
  | next _ hok hs ih => exact hstep _ _ _ ih hok hs

/-- Weakening the condition only adds states. -/
theorem Reach.mono {ok' : σ → α → Prop} {s₀ s : σ} (himp : ∀ s a, ok s a → ok' s a)
    (hr : Reach step ok s₀ s) : Reach step ok' s₀ s := by
  induction hr with
  | start => exact .start
  | next _ hok hs ih => exact .next ih (himp _ _ hok) hs

/-- Runs compose. -/
theorem Reach.trans {s₀ s₁ s₂ : σ} (h1 : Reach step ok s₀ s₁) (h2 : Reach step ok s₁ s₂) :
    Reach step ok s₀ s₂ := by
  induction h2 with
  | start => exact h1
  | next _ hok hs ih => exact .next ih hok hs

/-! ## §3. Every step and every state of one run. -/

/-- `ok` holds of every step of the run of `as` from `s`. -/
def EveryStep (step : σ → α → Option σ) (ok : σ → α → Prop) : σ → List α → Prop
  | _, [] => True
  | s, a :: as => ok s a ∧ ∀ m, step s a = some m → EveryStep step ok m as

/-- `P` holds of every state of the run of `as` from `s`, first and last included. -/
def EveryState (step : σ → α → Option σ) (P : σ → Prop) : σ → List α → Prop
  | s, [] => P s
  | s, a :: as => P s ∧ ∀ m, step s a = some m → EveryState step P m as

theorem everyStep_anything (s : σ) (as : List α) : EveryStep step Anything s as := by
  induction as generalizing s with
  | nil => trivial
  | cons a as ih => exact ⟨trivial, fun m _ => ih m⟩

/-- Whether every step of a concrete run is `ok` can be computed. -/
instance decidableEveryStep [∀ s a, Decidable (ok s a)] :
    ∀ (s : σ) (as : List α), Decidable (EveryStep step ok s as)
  | _, [] => isTrue trivial
  | s, a :: as =>
      match h : step s a with
      | none => decidable_of_iff (ok s a)
          ⟨fun hok => ⟨hok, fun _ hm => nomatch h.symm.trans hm⟩, And.left⟩
      | some m =>
          have := decidableEveryStep m as
          decidable_of_iff (ok s a ∧ EveryStep step ok m as)
            ⟨fun hok => ⟨hok.1, fun _ hm => Option.some.inj (h.symm.trans hm) ▸ hok.2⟩,
              fun hok => ⟨hok.1, hok.2 m h⟩⟩

/-- Actions that are `ok` in every state. -/
theorem everyStep_of_forall {s : σ} {as : List α} (h : ∀ a ∈ as, ∀ s, ok s a) :
    EveryStep step ok s as := by
  induction as generalizing s with
  | nil => trivial
  | cons a as ih =>
      exact ⟨h a List.mem_cons_self s, fun m _ => ih fun b hb => h b (List.mem_cons_of_mem a hb)⟩

/-- A run of `as ++ bs` has good steps throughout when both parts have. -/
theorem everyStep_append {s m : σ} {as bs : List α} (hex : exec step s as = some m)
    (has : EveryStep step ok s as) (hbs : EveryStep step ok m bs) :
    EveryStep step ok s (as ++ bs) := by
  induction as generalizing s with
  | nil =>
      cases hex
      exact hbs
  | cons a as ih =>
      obtain ⟨k, hk, hrest⟩ := exec_cons.mp hex
      refine ⟨has.1, fun k' hk' => ?_⟩
      obtain rfl : k = k' := Option.some.inj (hk.symm.trans hk')
      exact ih hrest (has.2 k hk)

/-- The two parts of a run of `as ++ bs` with good steps throughout. -/
theorem everyStep_of_append {s m : σ} {as bs : List α} (hex : exec step s as = some m)
    (h : EveryStep step ok s (as ++ bs)) : EveryStep step ok s as ∧ EveryStep step ok m bs := by
  induction as generalizing s with
  | nil =>
      cases hex
      exact ⟨trivial, h⟩
  | cons a as ih =>
      obtain ⟨k, hk, hrest⟩ := exec_cons.mp hex
      obtain ⟨has, hbs⟩ := ih hrest (h.2 k hk)
      refine ⟨⟨h.1, fun k' hk' => ?_⟩, hbs⟩
      obtain rfl : k = k' := Option.some.inj (hk.symm.trans hk')
      exact has

/-- Two conditions that agree wherever an invariant holds agree on a run. -/
theorem everyStep_congr {ok' : σ → α → Prop} (good : σ → Prop)
    (hgood : ∀ s a s', good s → step s a = some s' → good s')
    (heq : ∀ s a, good s → (ok s a ↔ ok' s a)) :
    ∀ {as : List α} {s : σ}, good s → (EveryStep step ok s as ↔ EveryStep step ok' s as) := by
  intro as
  induction as with
  | nil =>
      intro s _
      exact Iff.rfl
  | cons a as ih =>
      intro s hs
      refine and_congr (heq s a hs) (forall_congr' fun m => forall_congr' fun hm => ?_)
      exact ih (hgood s a m hs hm)

/-- An executed list of `ok` steps reaches its last state. -/
theorem reach_of_exec {s s' : σ} {as : List α} (hex : exec step s as = some s')
    (hok : EveryStep step ok s as) : Reach step ok s s' := by
  induction as generalizing s with
  | nil =>
      cases hex
      exact .start
  | cons a as ih =>
      obtain ⟨m, ha, has⟩ := exec_cons.mp hex
      exact Reach.trans (.next .start hok.1 ha) (ih has (hok.2 m ha))

/-- An executed list reaches its last state. -/
theorem reachable_of_exec {s s' : σ} {as : List α} (hex : exec step s as = some s') :
    Reachable step s s' :=
  reach_of_exec hex (everyStep_anything s as)

/-- The run-level form of the invariant rule. -/
theorem EveryState.last {P : σ → Prop} {s s' : σ} {as : List α}
    (h : EveryState step P s as) (hex : exec step s as = some s') : P s' := by
  induction as generalizing s with
  | nil =>
      cases hex
      exact h
  | cons a as ih =>
      obtain ⟨m, ha, has⟩ := exec_cons.mp hex
      exact ih (h.2 m ha) has

/-- **Exactness at the level of runs.**  If `good` is kept by every step, and
from a `good` state in which `P` holds a step keeps `P` exactly when it is
`ok`, then a run that starts so keeps `P` throughout exactly when every step
of it is `ok`. -/
theorem everyState_iff_everyStep {P : σ → Prop} (good : σ → Prop)
    (hgood : ∀ s a s', good s → step s a = some s' → good s')
    (hexact : ∀ s a s', good s → P s → step s a = some s' → (P s' ↔ ok s a)) :
    ∀ {as : List α} {s s' : σ}, good s → P s → exec step s as = some s' →
      (EveryState step P s as ↔ EveryStep step ok s as) := by
  intro as
  induction as with
  | nil =>
      intro s s' _ hP _
      exact ⟨fun _ => trivial, fun _ => hP⟩
  | cons a as ih =>
      intro s s' hg hP hex
      obtain ⟨m, ha, has⟩ := exec_cons.mp hex
      have hga : good m := hgood s a m hg ha
      have hiff := hexact s a m hg hP ha
      constructor
      · rintro ⟨_, hrest⟩
        have hstates := hrest m ha
        have hPm : P m := by
          cases as with
          | nil => exact hstates
          | cons b bs => exact hstates.1
        refine ⟨hiff.mp hPm, fun m' hm' => ?_⟩
        obtain rfl : m = m' := Option.some.inj (ha.symm.trans hm')
        exact (ih hga hPm has).mp hstates
      · rintro ⟨hoka, hrest⟩
        have hPm : P m := hiff.mpr hoka
        refine ⟨hP, fun m' hm' => ?_⟩
        obtain rfl : m = m' := Option.some.inj (ha.symm.trans hm')
        exact (ih hga hPm has).mpr (hrest m ha)

/-! ## §4. What a step has set and every later step has kept. -/

/-- Some step of the run of `as` from `s₀` is one that `sets`, and every step after
it is one that `keeps`. -/
def Since (step : σ → α → Option σ) (sets keeps : σ → α → Prop) (s₀ : σ) (as : List α) : Prop :=
  ∃ before a after s s', as = before ++ a :: after ∧ exec step s₀ before = some s ∧
    step s a = some s' ∧ sets s a ∧ EveryStep step keeps s' after

section

variable {sets keeps : σ → α → Prop} {s₀ s s' : σ} {a : α} {as : List α}

theorem not_since_nil : ¬ Since step sets keeps s₀ [] := by
  rintro ⟨before, a, after, s, s', has, -⟩
  simp at has

/-- **One more step**: it sets, or it keeps what was set before. -/
theorem since_concat (hex : exec step s₀ as = some s) (ha : step s a = some s') :
    Since step sets keeps s₀ (as ++ [a]) ↔
      sets s a ∨ (Since step sets keeps s₀ as ∧ keeps s a) := by
  constructor
  · rintro ⟨before, b, after, m, m', has, hbefore, hb, hset, hkept⟩
    rcases List.eq_nil_or_concat after with rfl | ⟨rest, c, rfl⟩
    · -- the last step is the one that sets
      obtain ⟨rfl, hab⟩ := List.append_inj' has rfl
      obtain rfl : a = b := List.head_eq_of_cons_eq hab
      obtain rfl : s = m := Option.some.inj (hex.symm.trans hbefore)
      exact .inl hset
    · rw [List.concat_eq_append] at has hkept
      have hsplit : as ++ [a] = (before ++ b :: rest) ++ [c] := by
        rw [has, List.append_assoc, List.cons_append]
      obtain ⟨rfl, hac⟩ := List.append_inj' hsplit rfl
      obtain rfl : a = c := List.head_eq_of_cons_eq hac
      obtain ⟨k, hk, hrest⟩ := exec_append.mp hex
      obtain rfl : m = k := Option.some.inj (hbefore.symm.trans hk)
      obtain ⟨k', hk', hrest⟩ := exec_cons.mp hrest
      obtain rfl : m' = k' := Option.some.inj (hb.symm.trans hk')
      obtain ⟨hearlier, hlast⟩ := everyStep_of_append hrest hkept
      exact .inr ⟨⟨before, b, rest, m, m', rfl, hbefore, hb, hset, hearlier⟩, hlast.1⟩
  · rintro (hset | ⟨⟨before, b, after, m, m', rfl, hbefore, hb, hset, hkept⟩, hlast⟩)
    · exact ⟨as, a, [], s, s', rfl, hex, ha, hset, trivial⟩
    · obtain ⟨k, hk, hrest⟩ := exec_append.mp hex
      obtain rfl : m = k := Option.some.inj (hbefore.symm.trans hk)
      obtain ⟨k', hk', hrest⟩ := exec_cons.mp hrest
      obtain rfl : m' = k' := Option.some.inj (hb.symm.trans hk')
      refine ⟨before, b, after ++ [a], m, m', by simp, hbefore, hb, hset, ?_⟩
      exact everyStep_append hrest hkept ⟨hlast, fun _ _ => trivial⟩

/-- **The rule for properties that a step sets and later steps keep.** -/
theorem since_iff {P good : σ → Prop} (hgood : ∀ s a s', good s → step s a = some s' → good s')
    (hstep : ∀ s a s', good s → step s a = some s' → (P s' ↔ sets s a ∨ (P s ∧ keeps s a)))
    (hstart : good s₀) (hP : ¬ P s₀) (hex : exec step s₀ as = some s) :
    P s ↔ Since step sets keeps s₀ as := by
  have hboth : good s ∧ (P s ↔ Since step sets keeps s₀ as) := by
    induction as using List.reverseRecOn generalizing s with
    | nil =>
        cases hex
        exact ⟨hstart, iff_of_false hP not_since_nil⟩
    | append_singleton as a ih =>
        obtain ⟨m, has, ha⟩ := exec_append.mp hex
        obtain ⟨m', ha, hm'⟩ := exec_cons.mp ha
        cases hm'
        obtain ⟨hm, hiff⟩ := ih has
        exact ⟨hgood m a s hm ha, by rw [hstep m a s hm ha, since_concat has ha, hiff]⟩
  exact hboth.2

/-- Nothing has been set in a run none of whose steps sets. -/
theorem not_since_of_everyStep (h : EveryStep step (fun s a => ¬ sets s a) s₀ as) :
    ¬ Since step sets keeps s₀ as := by
  rintro ⟨before, a, after, s, s', rfl, hbefore, -, hset, -⟩
  exact (everyStep_of_append hbefore h).2.1 hset

end

end Jmux.Lib
