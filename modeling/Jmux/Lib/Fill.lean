/-
  Jmux.Lib.Fill — reading a stream until enough has arrived.

  A stream gives what it holds in reads of any size, a read may fail, and after the
  last one every read is empty.  A loop adds one read after another to a buffer; it
  ends when the buffer is enough, when it is refused, or when a read fails.  Whether
  an empty read ends the loop is up to the loop.

  Main results:
    * `fill_outcome`, `fill_none_or` — what the loop comes to, without fuel.
    * `settle_none_iff`  — when the stream ends too early.
    * `Settled.length_eq_iff` — the buffer ends where the first read does that is enough.
    * `settle_full_iff`  — when the buffer is filled before it is too long.
-/
import Mathlib.Data.List.Basic
import Mathlib.Data.List.Infix

namespace Jmux.Lib.Fill

/-! ## §1. Reads. -/

/-- What one read gives. -/
structure Chunk (α : Type*) where
  items    : List α
  nonempty : items ≠ []

inductive ReadResult (α ε : Type*)
  | data (chunk : Chunk α)
  | err (e : ε)

variable {α ε : Type*}

theorem Chunk.length_pos (chunk : Chunk α) : 0 < chunk.items.length :=
  List.length_pos_of_ne_nil chunk.nonempty

/-- What arrives before a read fails. -/
def received : List (ReadResult α ε) → List α
  | .data chunk :: rest => chunk.items ++ received rest
  | _ => []

/-- The read that fails. -/
def firstError : List (ReadResult α ε) → Option ε
  | .data _ :: rest => firstError rest
  | .err e :: _ => some e
  | [] => none

/-- One of the reads ends after `n` items; `len` of them are there already. -/
def boundary (n : Nat) : Nat → List (ReadResult α ε) → Bool
  | len, .data chunk :: rest => len = n || boundary n (len + chunk.items.length) rest
  | len, _ => len = n

theorem boundary_of_le (n len : Nat) (reads : List (ReadResult α ε)) (h : n ≤ len) :
    boundary n len reads = decide (len = n) := by
  induction reads generalizing len with
  | nil => rfl
  | cons r rest ih =>
      cases r with
      | err e => rfl
      | data chunk =>
          have hpos := chunk.length_pos
          have hlater : decide (len + chunk.items.length = n) = false := decide_eq_false (by omega)
          show (decide (len = n) || boundary n (len + chunk.items.length) rest) = _
          rw [ih _ (by omega), hlater, Bool.or_false]

/-- Counting from another place. -/
theorem boundary_sub {n len k : Nat} (reads : List (ReadResult α ε)) (hlen : k ≤ len) (hn : k ≤ n) :
    boundary (n - k) (len - k) reads = boundary n len reads := by
  induction reads generalizing len with
  | nil =>
      show decide (len - k = n - k) = decide (len = n)
      rw [decide_eq_decide]
      omega
  | cons r rest ih =>
      have hhere : decide (len - k = n - k) = decide (len = n) := by
        rw [decide_eq_decide]
        omega
      cases r with
      | err e => exact hhere
      | data chunk =>
          show (decide (len - k = n - k) || boundary (n - k) (len - k + chunk.items.length) rest) = _
          have hnext : len - k + chunk.items.length = len + chunk.items.length - k := by omega
          rw [hhere, hnext, ih (by omega)]
          rfl

/-! ## §2. The loop. -/

inductive Filled (α ε : Type*)
  | full (buf : List α) (rest : List (ReadResult α ε))
  | refused
  | failed (e : ε)
  /-- An empty read. -/
  | closed

variable (enough refuse : List α → Bool)

/-- The loop; `none` is a loop that has not come to its end. -/
def fill (eofEnds : Bool) : Nat → List α → List (ReadResult α ε) → Option (Filled α ε)
  | 0, _, _ => none
  | fuel + 1, buf, reads =>
      if enough buf then some (.full buf reads)
      else if refuse buf then some .refused
      else
        match reads with
        | .data chunk :: rest => fill eofEnds fuel (buf ++ chunk.items) rest
        | .err e :: _ => some (.failed e)
        -- nothing is added by an empty read
        | [] => if eofEnds then some .closed else fill eofEnds fuel buf []

/-- What the reads lead to before the empty ones. -/
def settle : List α → List (ReadResult α ε) → Option (Filled α ε)
  | buf, [] =>
      if enough buf then some (.full buf []) else if refuse buf then some .refused else none
  | buf, .data chunk :: rest =>
      if enough buf then some (.full buf (.data chunk :: rest))
      else if refuse buf then some .refused
      else settle (buf ++ chunk.items) rest
  | buf, .err e :: rest =>
      if enough buf then some (.full buf (.err e :: rest))
      else if refuse buf then some .refused
      else some (.failed e)

section Steps

variable {enough refuse}

theorem settle_enough {buf : List α} (reads : List (ReadResult α ε)) (h : enough buf = true) :
    settle enough refuse buf reads = some (.full buf reads) := by
  rcases reads with _ | ⟨chunk | e, rest⟩ <;> simp [settle, h]

theorem settle_refuse {buf : List α} (reads : List (ReadResult α ε)) (h : enough buf = false)
    (hrefuse : refuse buf = true) : settle enough refuse buf reads = some .refused := by
  rcases reads with _ | ⟨chunk | e, rest⟩ <;> simp [settle, h, hrefuse]

theorem settle_data {buf : List α} (chunk : Chunk α) (rest : List (ReadResult α ε))
    (h : enough buf = false) (hrefuse : refuse buf = false) :
    settle enough refuse buf (.data chunk :: rest) =
      settle enough refuse (buf ++ chunk.items) rest := by
  simp [settle, h, hrefuse]

theorem settle_err {buf : List α} (e : ε) (rest : List (ReadResult α ε))
    (h : enough buf = false) (hrefuse : refuse buf = false) :
    settle enough refuse buf (.err e :: rest) = some (.failed e) := by
  simp [settle, h, hrefuse]

theorem settle_nil {buf : List α} (h : enough buf = false) (hrefuse : refuse buf = false) :
    settle enough refuse buf ([] : List (ReadResult α ε)) = none := by
  simp [settle, h, hrefuse]

theorem fill_enough (eofEnds : Bool) (fuel : Nat) {buf : List α} (reads : List (ReadResult α ε))
    (h : enough buf = true) :
    fill enough refuse eofEnds (fuel + 1) buf reads = some (.full buf reads) := by
  simp [fill, h]

theorem fill_refuse (eofEnds : Bool) (fuel : Nat) {buf : List α} (reads : List (ReadResult α ε))
    (h : enough buf = false) (hrefuse : refuse buf = true) :
    fill enough refuse eofEnds (fuel + 1) buf reads = some .refused := by
  simp [fill, h, hrefuse]

theorem fill_step (eofEnds : Bool) (fuel : Nat) {buf : List α} (reads : List (ReadResult α ε))
    (h : enough buf = false) (hrefuse : refuse buf = false) :
    fill enough refuse eofEnds (fuel + 1) buf reads =
      match reads with
      | .data chunk :: rest => fill enough refuse eofEnds fuel (buf ++ chunk.items) rest
      | .err e :: _ => some (.failed e)
      | [] => if eofEnds then some .closed else fill enough refuse eofEnds fuel buf [] := by
  rcases reads with _ | ⟨chunk | e, rest⟩ <;> simp [fill, h, hrefuse]

/-- What the buffer settles before any read. -/
theorem fill_settled (eofEnds : Bool) (fuel : Nat) {buf : List α} {reads : List (ReadResult α ε)}
    {r : Filled α ε} (hsettled : enough buf = true ∨ refuse buf = true)
    (h : settle enough refuse buf reads = some r) :
    fill enough refuse eofEnds (fuel + 1) buf reads = some r := by
  cases henough : enough buf with
  | true =>
      rw [settle_enough _ henough] at h
      rw [fill_enough eofEnds fuel _ henough]
      exact h
  | false =>
      have hrefuse : refuse buf = true := hsettled.resolve_left (by simp [henough])
      rw [settle_refuse _ henough hrefuse] at h
      rw [fill_refuse eofEnds fuel _ henough hrefuse]
      exact h

end Steps

theorem fill_of_settle (eofEnds : Bool) {fuel : Nat} {buf : List α} {reads : List (ReadResult α ε)}
    {r : Filled α ε} (hfuel : reads.length < fuel) (h : settle enough refuse buf reads = some r) :
    fill enough refuse eofEnds fuel buf reads = some r := by
  induction reads generalizing buf fuel with
  | nil =>
      obtain ⟨fuel, rfl⟩ := Nat.exists_eq_succ_of_ne_zero (Nat.ne_of_gt hfuel)
      by_cases hsettled : enough buf = true ∨ refuse buf = true
      · exact fill_settled eofEnds fuel hsettled h
      · simp only [not_or, Bool.not_eq_true] at hsettled
        rw [settle_nil hsettled.1 hsettled.2] at h
        exact absurd h (by simp)
  | cons read rest ih =>
      obtain ⟨fuel, rfl⟩ := Nat.exists_eq_succ_of_ne_zero (Nat.ne_of_gt (Nat.zero_lt_of_lt hfuel))
      by_cases hsettled : enough buf = true ∨ refuse buf = true
      · exact fill_settled eofEnds fuel hsettled h
      · simp only [not_or, Bool.not_eq_true] at hsettled
        rw [fill_step eofEnds fuel _ hsettled.1 hsettled.2]
        cases read with
        | data chunk =>
            rw [settle_data chunk rest hsettled.1 hsettled.2] at h
            exact ih (Nat.lt_of_succ_lt_succ hfuel) h
        | err e =>
            rw [settle_err e rest hsettled.1 hsettled.2] at h
            exact h

/-- When the reads lead to nothing, the buffer is neither enough nor refused. -/
theorem settle_none {buf : List α} {reads : List (ReadResult α ε)}
    (h : settle enough refuse buf reads = none) : enough buf = false ∧ refuse buf = false := by
  cases henough : enough buf with
  | true =>
      rw [settle_enough _ henough] at h
      exact absurd h (by simp)
  | false =>
      cases hrefuse : refuse buf with
      | true =>
          rw [settle_refuse _ henough hrefuse] at h
          exact absurd h (by simp)
      | false => exact ⟨rfl, rfl⟩

/-- The reads left over are some of the reads. -/
theorem settle_fewer {buf b : List α} {reads rest : List (ReadResult α ε)}
    (h : settle enough refuse buf reads = some (.full b rest)) : rest.length ≤ reads.length := by
  induction reads generalizing buf with
  | nil =>
      cases henough : enough buf with
      | true =>
          rw [settle_enough _ henough] at h
          obtain ⟨-, rfl⟩ := Filled.full.inj (Option.some.inj h)
          exact le_refl _
      | false =>
          simp only [settle, henough, Bool.false_eq_true, if_false] at h
          split_ifs at h
          exact nomatch h
  | cons read later ih =>
      cases henough : enough buf with
      | true =>
          rw [settle_enough _ henough] at h
          obtain ⟨-, rfl⟩ := Filled.full.inj (Option.some.inj h)
          exact le_refl _
      | false =>
      cases hrefuse : refuse buf with
      | true =>
          rw [settle_refuse _ henough hrefuse] at h
          exact nomatch h
      | false =>
          cases read with
          | err e =>
              rw [settle_err e later henough hrefuse] at h
              exact nomatch h
          | data chunk =>
              rw [settle_data chunk later henough hrefuse] at h
              exact (ih h).trans (Nat.le_succ _)

theorem fill_closed {fuel : Nat} {buf : List α} {reads : List (ReadResult α ε)}
    (hfuel : reads.length < fuel) (h : settle enough refuse buf reads = none) :
    fill enough refuse true fuel buf reads = some .closed := by
  induction reads generalizing buf fuel with
  | nil =>
      obtain ⟨fuel, rfl⟩ := Nat.exists_eq_succ_of_ne_zero (Nat.ne_of_gt hfuel)
      obtain ⟨henough, hrefuse⟩ := settle_none enough refuse h
      rw [fill_step true fuel _ henough hrefuse]
      rfl
  | cons read rest ih =>
      obtain ⟨fuel, rfl⟩ := Nat.exists_eq_succ_of_ne_zero (Nat.ne_of_gt (Nat.zero_lt_of_lt hfuel))
      obtain ⟨henough, hrefuse⟩ := settle_none enough refuse h
      rw [fill_step true fuel _ henough hrefuse]
      cases read with
      | data chunk =>
          rw [settle_data chunk rest henough hrefuse] at h
          exact ih (Nat.lt_of_succ_lt_succ hfuel) h
      | err e =>
          rw [settle_err e rest henough hrefuse] at h
          exact absurd h (by simp)

/-- Without the check for an empty read the loop goes on for ever. -/
theorem fill_none {buf : List α} {reads : List (ReadResult α ε)}
    (h : settle enough refuse buf reads = none) (fuel : Nat) :
    fill enough refuse false fuel buf reads = none := by
  induction fuel generalizing buf reads with
  | zero => rfl
  | succ fuel ih =>
      obtain ⟨henough, hrefuse⟩ := settle_none enough refuse h
      rw [fill_step false fuel _ henough hrefuse]
      cases reads with
      | nil => exact ih h
      | cons read rest =>
          cases read with
          | data chunk =>
              rw [settle_data chunk rest henough hrefuse] at h
              exact ih h
          | err e =>
              rw [settle_err e rest henough hrefuse] at h
              exact absurd h (by simp)

/-- What the loop comes to; `none` where it does not end. -/
def outcome (eofEnds : Bool) (buf : List α) (reads : List (ReadResult α ε)) :
    Option (Filled α ε) :=
  match settle enough refuse buf reads with
  | some r => some r
  | none => if eofEnds then some .closed else none

theorem fill_outcome (eofEnds : Bool) {fuel : Nat} {buf : List α} {reads : List (ReadResult α ε)}
    (hfuel : reads.length < fuel) :
    fill enough refuse eofEnds fuel buf reads = outcome enough refuse eofEnds buf reads := by
  unfold outcome
  cases h : settle enough refuse buf reads with
  | some r => exact fill_of_settle enough refuse eofEnds hfuel h
  | none =>
      cases eofEnds with
      | true => exact fill_closed enough refuse hfuel h
      | false => exact fill_none enough refuse h fuel

/-- With too little fuel the loop does not end; it never comes to anything else. -/
theorem fill_none_or (eofEnds : Bool) (fuel : Nat) (buf : List α) (reads : List (ReadResult α ε)) :
    fill enough refuse eofEnds fuel buf reads = none ∨
      fill enough refuse eofEnds fuel buf reads = outcome enough refuse eofEnds buf reads := by
  induction fuel generalizing buf reads with
  | zero => exact .inl rfl
  | succ fuel ih =>
      by_cases hfuel : reads.length < fuel + 1
      · exact .inr (fill_outcome enough refuse eofEnds hfuel)
      · unfold outcome
        cases henough : enough buf with
        | true =>
            rw [fill_enough eofEnds fuel _ henough, settle_enough _ henough]
            exact .inr rfl
        | false =>
            cases hrefuse : refuse buf with
            | true =>
                rw [fill_refuse eofEnds fuel _ henough hrefuse,
                  settle_refuse _ henough hrefuse]
                exact .inr rfl
            | false =>
                rw [fill_step eofEnds fuel _ henough hrefuse]
                cases reads with
                | nil => exact absurd (Nat.succ_pos fuel) hfuel
                | cons read rest =>
                    cases read with
                    | data chunk =>
                        rw [settle_data chunk rest henough hrefuse]
                        exact ih _ rest
                    | err e =>
                        rw [settle_err e rest henough hrefuse]
                        exact .inr rfl

/-! ## §3. What arrives decides. -/

/-- The loop looks only at beginnings of what arrives. -/
theorem settle_congr {enough' : List α → Bool} {buf : List α} {reads : List (ReadResult α ε)}
    (h : ∀ b, b <+: buf ++ received reads → enough b = enough' b) :
    settle enough refuse buf reads = settle enough' refuse buf reads := by
  induction reads generalizing buf with
  | nil => simp only [settle, h buf (List.prefix_append _ _)]
  | cons read rest ih =>
      have hbuf := h buf (List.prefix_append _ _)
      cases read with
      | err e => simp only [settle, hbuf]
      | data chunk =>
          have hrest : settle enough refuse (buf ++ chunk.items) rest =
              settle enough' refuse (buf ++ chunk.items) rest := by
            refine ih fun b hb => h b ?_
            rwa [List.append_assoc] at hb
          simp only [settle, hbuf, hrest]

/-- The buffer has so many items. -/
def atLeast (n : Nat) (buf : List α) : Bool := decide (n ≤ buf.length)

/-- The buffer that the loop ends with, and the reads that are left. -/
structure Settled (n : Nat) (buf : List α) (reads : List (ReadResult α ε)) (b : List α)
    (rest : List (ReadResult α ε)) : Prop where
  reached : n ≤ b.length
  grown   : buf <+: b
  stream  : b ++ received rest = buf ++ received reads
  error   : firstError rest = firstError reads
  fewer   : rest.length ≤ reads.length
  /-- The reads that are left end where they did. -/
  ends    : ∀ m, n ≤ m → boundary m buf.length reads = boundary m b.length rest

theorem settle_full {n : Nat} {buf b : List α} {reads rest : List (ReadResult α ε)}
    (h : settle (atLeast n) refuse buf reads = some (.full b rest)) :
    Settled n buf reads b rest := by
  induction reads generalizing buf with
  | nil =>
      cases henough : atLeast n buf with
      | true =>
          rw [settle_enough _ henough] at h
          obtain ⟨rfl, rfl⟩ := Filled.full.inj (Option.some.inj h)
          exact ⟨of_decide_eq_true henough, List.prefix_refl _, rfl, rfl, le_refl _, fun _ _ => rfl⟩
      | false =>
          cases hrefuse : refuse buf with
          | true =>
              rw [settle_refuse _ henough hrefuse] at h
              exact absurd h (by simp)
          | false =>
              rw [settle_nil henough hrefuse] at h
              exact absurd h (by simp)
  | cons read reads ih =>
      cases henough : atLeast n buf with
      | true =>
          rw [settle_enough _ henough] at h
          obtain ⟨rfl, rfl⟩ := Filled.full.inj (Option.some.inj h)
          exact ⟨of_decide_eq_true henough, List.prefix_refl _, rfl, rfl, le_refl _, fun _ _ => rfl⟩
      | false =>
          have hshort : buf.length < n := by simpa [atLeast] using henough
          cases hrefuse : refuse buf with
          | true =>
              rw [settle_refuse _ henough hrefuse] at h
              exact absurd h (by simp)
          | false =>
              cases read with
              | err e =>
                  rw [settle_err e reads henough hrefuse] at h
                  exact absurd h (by simp)
              | data chunk =>
                  rw [settle_data chunk reads henough hrefuse] at h
                  obtain ⟨hn, hgrown, hstream, herror, hlength, hboundary⟩ := ih h
                  refine ⟨hn, (List.prefix_append _ _).trans hgrown, ?_, herror,
                    hlength.trans (Nat.le_succ _), fun m hm => ?_⟩
                  · rw [hstream, List.append_assoc]
                    rfl
                  · rw [← hboundary m hm, List.length_append]
                    have hnot : decide (buf.length = m) = false := decide_eq_false (by omega)
                    show (decide (buf.length = m) || _) = _
                    rw [hnot, Bool.false_or]

/-- It ends there exactly when a read does. -/
theorem Settled.length_eq_iff {n : Nat} {buf b : List α} {reads rest : List (ReadResult α ε)}
    (h : Settled n buf reads b rest) : b.length = n ↔ boundary n buf.length reads = true := by
  rw [h.ends n (le_refl n), boundary_of_le n b.length rest h.reached]
  exact (decide_eq_true_iff).symm

theorem Settled.length_received {n : Nat} {buf b : List α} {reads rest : List (ReadResult α ε)}
    (h : Settled n buf reads b rest) :
    b.length + (received rest).length = buf.length + (received reads).length := by
  rw [← List.length_append, h.stream, List.length_append]

section Lengths

variable {n : Nat} (tooLong : Nat → Bool)

theorem boundary_lt {m len : Nat} {reads : List (ReadResult α ε)} (hm : m < len) :
    boundary m len reads ≠ true := by
  rw [boundary_of_le m len reads (le_of_lt hm), decide_eq_false (by omega)]
  exact Bool.false_ne_true

/-- Nothing fills a short buffer when nothing arrives. -/
theorem not_full_of_received_nil {buf : List α} {reads : List (ReadResult α ε)}
    (hn : ¬ n ≤ buf.length) (h : received reads = []) (refuse : List α → Bool) :
    ¬ ∃ b rest, settle (atLeast n) refuse buf reads = some (.full b rest) := by
  rintro ⟨b, rest, hfull⟩
  have hsettled := settle_full refuse hfull
  have hlength := hsettled.length_received
  rw [h, List.length_nil] at hlength
  have := hsettled.reached
  omega

/-- The reads fill the buffer exactly when enough arrives and no read before that
ends with a buffer that is too long. -/
theorem settle_full_iff {buf : List α} {reads : List (ReadResult α ε)} :
    (∃ b rest, settle (atLeast n) (fun b => tooLong b.length) buf reads = some (.full b rest)) ↔
      n ≤ buf.length + (received reads).length ∧
        ∀ m < n, boundary m buf.length reads = true → tooLong m = false := by
  induction reads generalizing buf with
  | nil =>
      by_cases hn : n ≤ buf.length
      · rw [settle_enough _ (decide_eq_true hn)]
        exact iff_of_true ⟨_, _, rfl⟩
          ⟨by omega, fun m hm hend => absurd hend (boundary_lt (by omega))⟩
      · exact iff_of_false (not_full_of_received_nil hn rfl _) fun h => hn (by simpa [received] using h.1)
  | cons read reads ih =>
      by_cases hn : n ≤ buf.length
      · rw [settle_enough _ (decide_eq_true hn)]
        exact iff_of_true ⟨_, _, rfl⟩
          ⟨by omega, fun m hm hend => absurd hend (boundary_lt (by omega))⟩
      · have hhere : boundary buf.length buf.length (read :: reads) = true := by
          rw [boundary_of_le _ _ _ (le_refl _)]
          exact decide_eq_true rfl
        cases hlong : tooLong buf.length with
        | true =>
            rw [settle_refuse _ (decide_eq_false hn) hlong]
            refine iff_of_false (by simp) fun h => ?_
            rw [h.2 buf.length (by omega) hhere] at hlong
            exact absurd hlong (by simp)
        | false =>
            cases read with
            | err e =>
                exact iff_of_false (not_full_of_received_nil hn rfl _)
                  fun h => hn (by simpa [received] using h.1)
            | data chunk =>
                rw [settle_data chunk reads (decide_eq_false hn) hlong, ih, List.length_append]
                have hreceived : (received (.data chunk :: reads : List (ReadResult α ε))).length =
                    chunk.items.length + (received reads).length := List.length_append
                rw [hreceived, Nat.add_assoc]
                refine and_congr_right fun _ => forall₂_congr fun m hm => ?_
                show _ ↔ ((decide (buf.length = m) || boundary m _ reads) = true → _)
                rw [Bool.or_eq_true, decide_eq_true_iff, or_imp, and_iff_right]
                rintro rfl
                exact hlong

/-- The reads lead to nothing exactly when too little arrives and no read fails. -/
theorem settle_none_iff {buf : List α} {reads : List (ReadResult α ε)} :
    settle (atLeast n) (fun _ => false) buf reads = none ↔
      firstError reads = none ∧ buf.length + (received reads).length < n := by
  induction reads generalizing buf with
  | nil =>
      by_cases hn : n ≤ buf.length
      · rw [settle_enough _ (decide_eq_true hn)]
        refine iff_of_false (by simp) fun h => ?_
        exact absurd h.2 (by simp [received]; omega)
      · rw [settle_nil (decide_eq_false hn) rfl]
        exact iff_of_true rfl ⟨rfl, by simp [received]; omega⟩
  | cons read reads ih =>
      by_cases hn : n ≤ buf.length
      · rw [settle_enough _ (decide_eq_true hn)]
        refine iff_of_false (by simp) fun h => ?_
        omega
      · cases read with
        | err e =>
            rw [settle_err e reads (decide_eq_false hn) rfl]
            exact iff_of_false (by simp) fun h => absurd h.1 (by simp [firstError])
        | data chunk =>
            rw [settle_data chunk reads (decide_eq_false hn) rfl, ih, List.length_append]
            show _ ↔ firstError reads = none ∧
              buf.length + (chunk.items ++ received reads).length < n
            rw [List.length_append, Nat.add_assoc]

end Lengths

end Jmux.Lib.Fill
