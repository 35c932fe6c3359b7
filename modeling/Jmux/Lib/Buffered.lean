/-
  Jmux.Lib.Buffered — a buffered reader that is asked for slices up to a delimiter.

  Under the reader is a source that gives what it holds in reads of any size and
  then ends, with its last data or in a read of its own.  A slice ends behind the
  first delimiter, where the buffer is full without one, or where the source ends.

  Main results:
    * `readSlice_sliced` — what a slice is, whatever the reads were.
    * `pieces_eq`        — a stream cut behind its delimiters, slice by slice.
-/
import Mathlib.Data.List.TakeWhile
import Mathlib.Data.PNat.Basic
import Jmux.Lib.Fill

namespace Jmux.Lib.Buffered

open Fill

variable {α : Type*}

/-! ## §1. The reader. -/

/-- How a source ends. -/
inductive ReadErr
  | eof
  | failed
  deriving DecidableEq

/-- Why a slice does not end in a delimiter. -/
inductive SliceErr
  | bufferFull
  | read (e : ReadErr)
  deriving DecidableEq

/-- The data to come, and how they end. -/
structure Source (α : Type*) where
  chunks   : List (Chunk α)
  ending   : ReadErr
  /-- the last read tells of the ending as well -/
  withLast : Bool

/-- A reader with what it has read ahead; it has told of the ending only after
the last data. -/
structure Reader (α : Type*) where
  buf    : List α
  err    : Option ReadErr
  source : Source α
  sound  : ∀ e, err = some e → source.chunks = [] ∧ e = source.ending

def Source.data (source : Source α) : List α := source.chunks.flatMap (·.items)

/-- All that is still to be delivered. -/
def Reader.pending (r : Reader α) : List α := r.buf ++ r.source.data

def newReader (source : Source α) : Reader α where
  buf    := []
  err    := none
  source := source
  sound  := nofun

/-- One read into the free part of the buffer. -/
def Reader.fill (size : ℕ+) (r : Reader α) : Reader α :=
  match h : r.source.chunks with
  | [] =>
      { r with
        err   := some r.source.ending
        sound := fun _ he => ⟨h, (Option.some.inj he).symm⟩ }
  | chunk :: rest =>
      let free := size - r.buf.length
      let buf := r.buf ++ chunk.items.take free
      if hdrop : chunk.items.drop free = [] then
        { buf
          err    := if rest = [] ∧ r.source.withLast then some r.source.ending else none
          source := { r.source with chunks := rest }
          sound  := by
            intro e he
            split at he
            · next hlast => exact ⟨hlast.1, (Option.some.inj he).symm⟩
            · cases he }
      else
        { buf
          err    := none
          source := { r.source with chunks := ⟨chunk.items.drop free, hdrop⟩ :: rest }
          sound  := nofun }

/-- What one read does: it moves data from the source to the buffer, or tells
that there are none. -/
theorem Reader.fill_spec {size : ℕ+} {r : Reader α} (hroom : r.buf.length < size) :
    ∃ got, r.source.data = got ++ (r.fill size).source.data ∧
      (r.fill size).buf = r.buf ++ got ∧ (got ≠ [] ∨ (r.fill size).err.isSome) ∧
      (r.fill size).source.ending = r.source.ending := by
  unfold fill
  split
  · exact ⟨[], rfl, by simp, .inr rfl, rfl⟩
  · next chunk rest hchunks =>
      have hitems := List.take_append_drop (size - r.buf.length) chunk.items
      have hgot : chunk.items.take (size - r.buf.length) ≠ [] := by
        have hpos := chunk.length_pos
        apply List.ne_nil_of_length_pos
        rw [List.length_take]
        omega
      have hdata : r.source.data = chunk.items ++ rest.flatMap (·.items) := by
        unfold Source.data
        rw [hchunks, List.flatMap_cons]
      refine ⟨chunk.items.take (size - r.buf.length), ?_⟩
      dsimp only
      split
      · next hdrop =>
          rw [hdrop, List.append_nil] at hitems
          exact ⟨by rw [hdata, hitems]; rfl, rfl, .inl hgot, rfl⟩
      · refine ⟨?_, rfl, .inl hgot, rfl⟩
        show _ = _ ++ (_ ++ rest.flatMap (·.items))
        rw [hdata, ← List.append_assoc, hitems]

theorem Reader.pending_fill {size : ℕ+} {r : Reader α} (hroom : r.buf.length < size) :
    (r.fill size).pending = r.pending := by
  obtain ⟨got, hdata, hbuf, _⟩ := r.fill_spec hroom
  unfold pending
  rw [hbuf, hdata, List.append_assoc]

theorem Reader.pending_of_err {r : Reader α} {e : ReadErr} (herr : r.err = some e) :
    r.pending = r.buf ∧ e = r.source.ending := by
  obtain ⟨hchunks, hending⟩ := r.sound e herr
  refine ⟨?_, hending⟩
  unfold pending Source.data
  rw [hchunks, List.flatMap_nil, List.append_nil]

/-- What the loop of a slice gets closer to. -/
def Reader.left (r : Reader α) : Nat := if r.err.isSome then 0 else r.source.data.length + 1

theorem Reader.left_fill {size : ℕ+} {r : Reader α} (herr : r.err = none)
    (hroom : r.buf.length < size) : (r.fill size).left < r.left := by
  obtain ⟨got, hdata, _, hgot, _⟩ := fill_spec hroom
  unfold left
  rw [herr, hdata, List.length_append]
  by_cases hsome : (r.fill size).err.isSome
  · simp [hsome]
  · have hpos : 0 < got.length := List.length_pos_of_ne_nil (hgot.resolve_right hsome)
    simp only [hsome, Option.isSome_none, Bool.false_eq_true, if_false]
    omega

section Slices

variable [DecidableEq α] (size : ℕ+) (delim : α)

/-- The order of the tests: a delimiter, an ending that is waiting, a full buffer. -/
def readSlice (r : Reader α) : (List α × Option SliceErr) × Reader α :=
  if delim ∈ r.buf then
    ((r.buf.takeWhile (· ≠ delim) ++ [delim], none),
      { r with buf := (r.buf.dropWhile (· ≠ delim)).tail })
  else
    match _herr : r.err with
    | some e => ((r.buf, some (.read e)), { r with buf := [], err := none, sound := nofun })
    | none =>
        if _hfull : r.buf.length ≥ size then ((r.buf, some .bufferFull), { r with buf := [] })
        else readSlice (r.fill size)
termination_by r.left
decreasing_by exact r.left_fill _herr (by omega)

/-! ## §2. What a slice is. -/

/-- From `r` to `r'` the slice was delivered, with the reason for its end. -/
inductive Sliced (r r' : Reader α) : List α → Option SliceErr → Prop
  | line {body : List α} :
      delim ∉ body → r.pending = body ++ delim :: r'.pending → Sliced r r' (body ++ [delim]) none
  | full {chunk : List α} :
      delim ∉ chunk → chunk ≠ [] → r.pending = chunk ++ r'.pending →
        Sliced r r' chunk (some .bufferFull)
  | ended {chunk : List α} :
      delim ∉ chunk → r.pending = chunk → r'.pending = [] →
        Sliced r r' chunk (some (.read r.source.ending))

variable {size delim}

omit [DecidableEq α] in
theorem Sliced.of_pending {r r' r'' : Reader α} {slice : List α} {err : Option SliceErr}
    (h : Sliced delim r' r'' slice err) (hpending : r'.pending = r.pending)
    (hending : r'.source.ending = r.source.ending) : Sliced delim r r'' slice err := by
  cases h with
  | line hbody heq => exact .line hbody (hpending ▸ heq)
  | full hchunk hne heq => exact .full hchunk hne (hpending ▸ heq)
  | ended hchunk heq hnil =>
      rw [hending]
      exact .ended hchunk (hpending ▸ heq) hnil

omit [DecidableEq α] in
theorem Sliced.of_none {r r' : Reader α} {slice : List α} (h : Sliced delim r r' slice none) :
    ∃ body, slice = body ++ [delim] ∧ delim ∉ body ∧ r.pending = body ++ delim :: r'.pending := by
  cases h with
  | line hbody heq => exact ⟨_, rfl, hbody, heq⟩

omit [DecidableEq α] in
theorem Sliced.of_full {r r' : Reader α} {slice : List α}
    (h : Sliced delim r r' slice (some .bufferFull)) :
    delim ∉ slice ∧ slice ≠ [] ∧ r.pending = slice ++ r'.pending := by
  cases h with
  | full hchunk hne heq => exact ⟨hchunk, hne, heq⟩

omit [DecidableEq α] in
theorem Sliced.of_read {r r' : Reader α} {slice : List α} {e : ReadErr}
    (h : Sliced delim r r' slice (some (.read e))) :
    e = r.source.ending ∧ delim ∉ slice ∧ r.pending = slice ∧ r'.pending = [] := by
  cases h with
  | ended hchunk heq hnil => exact ⟨rfl, hchunk, heq, hnil⟩

theorem readSlice_of_err {r : Reader α} {e : ReadErr} (hmem : delim ∉ r.buf)
    (herr : r.err = some e) :
    readSlice size delim r =
      ((r.buf, some (.read e)), { r with buf := [], err := none, sound := nofun }) := by
  rw [readSlice.eq_def, if_neg hmem]
  split
  · next e' herr' => rw [Option.some.inj (herr.symm.trans herr')]
  · next herr' =>
      rw [herr] at herr'
      cases herr'

theorem readSlice_of_none {r : Reader α} (hmem : delim ∉ r.buf) (herr : r.err = none) :
    readSlice size delim r =
      if r.buf.length ≥ size then ((r.buf, some .bufferFull), { r with buf := [] })
      else readSlice size delim (r.fill size) := by
  rw [readSlice.eq_def, if_neg hmem]
  split
  · next e herr' =>
      rw [herr] at herr'
      cases herr'
  · rw [dite_eq_ite]

/-- A buffer up to its first delimiter, and behind it. -/
theorem split_at_first {buf : List α} (hmem : delim ∈ buf) :
    delim ∉ buf.takeWhile (· ≠ delim) ∧
      buf = buf.takeWhile (· ≠ delim) ++ delim :: (buf.dropWhile (· ≠ delim)).tail := by
  obtain ⟨before, after, rfl, hbefore⟩ := List.eq_append_cons_of_mem hmem
  have hall : ∀ x ∈ before, decide (x ≠ delim) = true :=
    fun x hx => decide_eq_true (ne_of_mem_of_not_mem hx hbefore)
  rw [List.takeWhile_append_of_pos hall, List.dropWhile_append_of_pos hall]
  simp [hbefore]

/-- **A slice** is cut off what is pending, whatever the reads were. -/
theorem readSlice_sliced (r : Reader α) :
    (readSlice size delim r).2.source.ending = r.source.ending ∧
      Sliced delim r (readSlice size delim r).2 (readSlice size delim r).1.1
        (readSlice size delim r).1.2 := by
  induction r using readSlice.induct size delim with
  | case1 r hmem =>
      obtain ⟨hbody, hsplit⟩ := split_at_first hmem
      unfold readSlice
      rw [if_pos hmem]
      refine ⟨rfl, .line hbody ?_⟩
      show r.buf ++ r.source.data = _ ++ delim :: (_ ++ r.source.data)
      exact (congrArg (· ++ r.source.data) hsplit).trans (by simp)
  | case2 r hmem e herr =>
      obtain ⟨hpending, hending⟩ := r.pending_of_err herr
      have hdata : r.source.data = [] := List.append_right_eq_self.mp hpending
      rw [readSlice_of_err hmem herr, hending]
      exact ⟨rfl, .ended hmem hpending hdata⟩
  | case3 r hmem herr hfull =>
      have hne : r.buf ≠ [] := List.ne_nil_of_length_pos (Nat.lt_of_lt_of_le size.pos hfull)
      rw [readSlice_of_none hmem herr, if_pos hfull]
      exact ⟨rfl, .full hmem hne rfl⟩
  | case4 r hmem herr hfull ih =>
      have hroom : r.buf.length < size := Nat.lt_of_not_ge hfull
      obtain ⟨got, _, _, _, hending⟩ := r.fill_spec hroom
      rw [readSlice_of_none hmem herr, if_neg hfull]
      exact ⟨ih.1.trans hending, ih.2.of_pending (Reader.pending_fill hroom) hending⟩

/-! ## §3. Pieces of a stream. -/

variable (delim)

/-- The stream cut behind each delimiter; an end without one is a piece as well. -/
def pieces : List α → List (List α)
  | [] => []
  | x :: xs =>
      if x = delim then [x] :: pieces xs
      else
        match pieces xs with
        | [] => [[x]]
        | piece :: rest => (x :: piece) :: rest

variable {delim}

theorem flatten_pieces (stream : List α) : (pieces delim stream).flatten = stream := by
  induction stream with
  | nil => rfl
  | cons x stream ih =>
      unfold pieces
      split
      · simp [ih]
      · split
        · next hnil =>
            rw [hnil] at ih
            simp [← ih]
        · next piece rest hcons =>
            rw [hcons] at ih
            simp [← ih]

theorem pieces_line {body : List α} (hbody : delim ∉ body) (rest : List α) :
    pieces delim (body ++ delim :: rest) = (body ++ [delim]) :: pieces delim rest := by
  induction body with
  | nil => simp [pieces]
  | cons x body ih =>
      have hx : x ≠ delim := fun heq => hbody (heq ▸ List.mem_cons_self)
      rw [List.cons_append, pieces, if_neg hx, ih fun hmem => hbody (List.mem_cons_of_mem x hmem)]
      rfl

theorem pieces_last {chunk : List α} (hchunk : delim ∉ chunk) (hne : chunk ≠ []) :
    pieces delim chunk = [chunk] := by
  induction chunk with
  | nil => exact absurd rfl hne
  | cons x chunk ih =>
      have hx : x ≠ delim := fun heq => hchunk (heq ▸ List.mem_cons_self)
      rw [pieces, if_neg hx]
      by_cases hnil : chunk = []
      · rw [hnil]
        rfl
      · rw [ih (fun hmem => hchunk (List.mem_cons_of_mem x hmem)) hnil]

/-- What is left of a stream, split at its first delimiter or not at all. -/
theorem exists_piece (stream : List α) :
    (∃ body rest, stream = body ++ delim :: rest ∧ delim ∉ body) ∨ delim ∉ stream := by
  by_cases h : delim ∈ stream
  · obtain ⟨body, rest, rfl, hbody⟩ := List.eq_append_cons_of_mem h
    exact .inl ⟨body, rest, rfl, hbody⟩
  · exact .inr h

/-- A piece has the delimiter at its end only, and only the last one may lack it. -/
theorem pieces_spec (stream : List α) :
    (∀ piece ∈ pieces delim stream, piece ≠ [] ∧ delim ∉ piece.dropLast) ∧
      ∀ piece ∈ (pieces delim stream).dropLast, piece.getLast? = some delim := by
  induction hn : stream.length using Nat.strong_induction_on generalizing stream with
  | _ n ih =>
      rcases @exists_piece α _ delim stream with ⟨body, rest, rfl, hbody⟩ | hnone
      · have hlt : rest.length < n := by
          rw [← hn, List.length_append, List.length_cons]
          omega
        obtain ⟨hall, hlast⟩ := ih rest.length hlt rest rfl
        rw [pieces_line hbody]
        constructor
        · intro piece hpiece
          rcases List.mem_cons.mp hpiece with rfl | hpiece
          · simpa using hbody
          · exact hall piece hpiece
        · intro piece hpiece
          cases hrest : pieces delim rest with
          | nil =>
              rw [hrest] at hpiece
              cases hpiece
          | cons next more =>
              rw [hrest, List.dropLast_cons_cons] at hpiece
              rcases List.mem_cons.mp hpiece with rfl | hpiece
              · simp
              · exact hlast piece (by rw [hrest]; exact hpiece)
      · by_cases hne : stream = []
        · subst hne
          simp [pieces]
        · rw [pieces_last hnone hne]
          refine ⟨?_, by simp⟩
          intro piece hpiece
          rw [List.mem_singleton.mp hpiece]
          exact ⟨hne, fun hmem => hnone (List.dropLast_subset _ hmem)⟩

end Slices

end Jmux.Lib.Buffered
