/-
  Jmux.Remote.Framing — the request frames of the daemon (`jmuxd-remote/main.go`).

  A request is a line on standard input.  `readRPCFrame` puts a frame together
  from slices of a buffered reader, each no longer than the buffer, and gives up
  on a frame that is longer than the limit.

  Main results:
    * `readRPCFrame_spec` — one call, on whatever is pending.
    * `readFrames_eq`     — repeated calls cut the stream behind its newlines.
-/
import Jmux.Lib.Buffered
import Jmux.Remote.Proxy

namespace Jmux.Remote

open Jmux.Lib Jmux.Lib.Buffered

/-! ## §1. Reading a frame. -/

abbrev StdinReader := Reader UInt8

def newline : UInt8 := 10

def carriageReturn : UInt8 := 13

/-- `maxRPCFrameBytes` -/
def maxRPCFrameBytes : Nat := 4 * 1024 * 1024

/-- The buffer of the daemon's reader. -/
def stdinBufferSize : ℕ+ := 64 * 1024

/-- What a call of `readRPCFrame` returns. -/
inductive FrameResult
  | frame (line : Bytes)
  | oversized
  | failed (err : ReadErr)
  deriving DecidableEq

variable (size : ℕ+)

/-- A slice that ends where the buffer is full leaves less than there was. -/
theorem pending_of_full {r : StdinReader}
    (h : (readSlice size newline r).1.2 = some .bufferFull) :
    (readSlice size newline r).2.pending.length < r.pending.length := by
  have hsliced := (@readSlice_sliced _ _ size newline r).2
  rw [h] at hsliced
  obtain ⟨_, hne, heq⟩ := hsliced.of_full
  have hpos := List.length_pos_of_ne_nil hne
  rw [heq, List.length_append]
  omega

/-- The rest of a frame that is too long. -/
def discardUntilNewline (r : StdinReader) : Option ReadErr × StdinReader :=
  match _h : (readSlice size newline r).1.2 with
  | none => (none, (readSlice size newline r).2)
  | some (.read e) => (some e, (readSlice size newline r).2)
  | some .bufferFull => discardUntilNewline (readSlice size newline r).2
termination_by r.pending.length
decreasing_by exact pending_of_full size _h

/-- The loop of `readRPCFrame`, with the part of the frame that it has. -/
def readFrameFrom (maxBytes : Nat) (frame : Bytes) (r : StdinReader) :
    FrameResult × StdinReader :=
  let chunk := (readSlice size newline r).1.1
  let r' := (readSlice size newline r).2
  if chunk ≠ [] ∧ frame.length + chunk.length > maxBytes then
    match (readSlice size newline r).1.2 with
    | some .bufferFull =>
        match discardUntilNewline size r' with
        | (some .failed, r'') => (.failed .failed, r'')
        | (_, r'') => (.oversized, r'')
    -- the slice ends with its frame
    | _ => (.oversized, r')
  else
    let frame := frame ++ chunk
    match _h : (readSlice size newline r).1.2 with
    | none => (.frame frame, r')
    | some .bufferFull => readFrameFrom maxBytes frame r'
    | some (.read .eof) => if frame = [] then (.failed .eof, r') else (.frame frame, r')
    | some (.read .failed) => (.failed .failed, r')
termination_by r.pending.length
decreasing_by exact pending_of_full size _h

def readRPCFrame (maxBytes : Nat) (r : StdinReader) : FrameResult × StdinReader :=
  readFrameFrom size maxBytes [] r

/-! ## §2. One call. -/

variable {size}

/-- The first piece of a stream and what is behind it. -/
inductive FirstPiece : Bytes → Bytes → Bytes → Prop
  | line {body rest : Bytes} :
      newline ∉ body → FirstPiece (body ++ newline :: rest) (body ++ [newline]) rest
  | last {chunk : Bytes} : newline ∉ chunk → FirstPiece chunk chunk []

theorem FirstPiece.cons {chunk stream piece rest : Bytes} (h : FirstPiece stream piece rest)
    (hchunk : newline ∉ chunk) : FirstPiece (chunk ++ stream) (chunk ++ piece) rest := by
  have hnot : ∀ {body : Bytes}, newline ∉ body → newline ∉ chunk ++ body := by
    intro body hbody hmem
    rcases List.mem_append.mp hmem with hmem | hmem
    · exact hchunk hmem
    · exact hbody hmem
  cases h with
  | line hbody =>
      rw [← List.append_assoc, ← List.append_assoc]
      exact .line (hnot hbody)
  | last hlast => exact .last (hnot hlast)

theorem FirstPiece.pieces {stream piece rest : Bytes} (h : FirstPiece stream piece rest)
    (hne : stream ≠ []) : pieces newline stream = piece :: pieces newline rest := by
  cases h with
  | line hbody => exact pieces_line hbody rest
  | last hlast => exact pieces_last hlast hne

theorem FirstPiece.eq_nil {stream piece rest : Bytes} (h : FirstPiece stream piece rest)
    (hstream : stream = []) : piece = [] := by
  cases h with
  | line _ => simp at hstream
  | last _ => exact hstream

theorem readSlice_ending (r : StdinReader) (heof : r.source.ending = .eof) :
    (readSlice size newline r).2.source.ending = .eof :=
  (@readSlice_sliced _ _ size newline r).1.trans heof

/-- A read fails only at the end of the stream. -/
theorem readSlice_eof {r : StdinReader} (heof : r.source.ending = .eof) {e : ReadErr}
    (herr : (readSlice size newline r).1.2 = some (.read e)) : e = .eof := by
  have hsliced := (@readSlice_sliced _ _ size newline r).2
  rw [herr] at hsliced
  exact hsliced.of_read.1.trans heof

/-- A slice that does not end where the buffer is full is the rest of its piece. -/
theorem readSlice_piece {r : StdinReader}
    (herr : (readSlice size newline r).1.2 ≠ some .bufferFull) :
    FirstPiece r.pending (readSlice size newline r).1.1 (readSlice size newline r).2.pending := by
  have hsliced := (@readSlice_sliced _ _ size newline r).2
  cases hres : (readSlice size newline r).1.2 with
  | none =>
      rw [hres] at hsliced
      obtain ⟨body, hslice, hbody, heq⟩ := hsliced.of_none
      rw [hslice, heq]
      exact .line hbody
  | some err =>
      cases err with
      | bufferFull => exact absurd hres herr
      | read e =>
          rw [hres] at hsliced
          obtain ⟨_, hchunk, heq, hnil⟩ := hsliced.of_read
          rw [hnil, heq]
          exact .last hchunk

/-- A slice that fills the buffer, and the rest of its piece. -/
theorem readSlice_more {r : StdinReader} {piece rest : Bytes}
    (herr : (readSlice size newline r).1.2 = some .bufferFull)
    (hpiece : FirstPiece (readSlice size newline r).2.pending piece rest) :
    FirstPiece r.pending ((readSlice size newline r).1.1 ++ piece) rest := by
  have hsliced := (@readSlice_sliced _ _ size newline r).2
  rw [herr] at hsliced
  obtain ⟨hchunk, _, heq⟩ := hsliced.of_full
  rw [heq]
  exact hpiece.cons hchunk

/-- Discarding stops behind the first piece. -/
theorem discardUntilNewline_spec (r : StdinReader) (heof : r.source.ending = .eof) :
    (discardUntilNewline size r).1 ≠ some .failed ∧
      (discardUntilNewline size r).2.source.ending = .eof ∧
      ∃ piece, FirstPiece r.pending piece (discardUntilNewline size r).2.pending := by
  induction hn : r.pending.length using Nat.strong_induction_on generalizing r with
  | _ n ih =>
      have heof' := @readSlice_ending size r heof
      unfold discardUntilNewline
      split
      · next herr => exact ⟨by simp, heof', _, readSlice_piece (by simp [herr])⟩
      · next e herr =>
          rw [readSlice_eof heof herr]
          exact ⟨by simp, heof', _, readSlice_piece (by simp [herr])⟩
      · next herr =>
          have hlt := pending_of_full size herr
          obtain ⟨hok, hend, piece, hpiece⟩ := ih _ (by rw [← hn]; exact hlt) _ heof' rfl
          exact ⟨hok, hend, _, readSlice_more herr hpiece⟩

/-- What is said of a piece: an empty one is the end of the stream. -/
def frameOf (maxBytes : Nat) (piece : Bytes) : FrameResult :=
  if piece = [] then .failed .eof
  else if piece.length > maxBytes then .oversized
  else .frame piece

theorem frameOf_oversized {maxBytes : Nat} {piece : Bytes} (h : piece.length > maxBytes) :
    frameOf maxBytes piece = .oversized := by
  have hne : piece ≠ [] := List.ne_nil_of_length_pos (by omega)
  unfold frameOf
  rw [if_neg hne, if_pos h]

theorem frameOf_frame {maxBytes : Nat} {piece : Bytes} (hne : piece ≠ [])
    (h : piece.length ≤ maxBytes) : frameOf maxBytes piece = .frame piece := by
  unfold frameOf
  rw [if_neg hne, if_neg (by omega)]

/-- With a part of a frame that is within the limit, the rest of its piece is read. -/
theorem readFrameFrom_spec {maxBytes : Nat} (frame : Bytes) (r : StdinReader)
    (heof : r.source.ending = .eof) (hframe : frame.length ≤ maxBytes) :
    (readFrameFrom size maxBytes frame r).2.source.ending = .eof ∧
      ∃ piece, FirstPiece r.pending piece (readFrameFrom size maxBytes frame r).2.pending ∧
        (readFrameFrom size maxBytes frame r).1 = frameOf maxBytes (frame ++ piece) := by
  induction hn : r.pending.length using Nat.strong_induction_on generalizing frame r with
  | _ n ih =>
      have heof' := @readSlice_ending size r heof
      unfold readFrameFrom
      dsimp only
      split
      · next hover =>
          obtain ⟨_, hover⟩ := hover
          have hlong : ∀ more, frameOf maxBytes
              (frame ++ ((readSlice size newline r).1.1 ++ more)) = .oversized := by
            intro more
            apply frameOf_oversized
            simp only [List.length_append]
            omega
          split
          · next herr =>
              -- over the limit within a frame: its rest is skipped
              obtain ⟨hok, hend, piece, hpiece⟩ :=
                @discardUntilNewline_spec size (readSlice size newline r).2 heof'
              split
              · next r'' hdiscard =>
                  rw [hdiscard] at hok
                  exact absurd rfl hok
              · next r'' _ hdiscard =>
                  rw [hdiscard] at hend hpiece
                  exact ⟨hend, _, readSlice_more herr hpiece, (hlong piece).symm⟩
          · next hnotfull =>
              have hres := hlong []
              rw [List.append_nil] at hres
              exact ⟨heof', _, readSlice_piece hnotfull, hres.symm⟩
      · next hwithin =>
          have hwhole : (frame ++ (readSlice size newline r).1.1).length ≤ maxBytes := by
            by_cases hslice : (readSlice size newline r).1.1 = []
            · rw [hslice, List.append_nil]
              exact hframe
            · rw [List.length_append]
              by_contra hlt
              exact hwithin ⟨hslice, by omega⟩
          split
          · next herr =>
              have hpiece := @readSlice_piece size r (by simp [herr])
              have hsliced := (@readSlice_sliced _ _ size newline r).2
              rw [herr] at hsliced
              obtain ⟨body, hslice, _⟩ := hsliced.of_none
              refine ⟨heof', _, hpiece, (frameOf_frame ?_ hwhole).symm⟩
              rw [hslice]
              simp
          · next herr =>
              have hlt := pending_of_full size herr
              obtain ⟨hend, piece, hpiece, hres⟩ :=
                ih _ (by rw [← hn]; exact hlt) _ _ heof' hwhole rfl
              refine ⟨hend, _, readSlice_more herr hpiece, ?_⟩
              rw [hres, List.append_assoc]
          · next herr =>
              have hpiece := @readSlice_piece size r (by simp [herr])
              split
              · next hempty =>
                  refine ⟨heof', _, hpiece, ?_⟩
                  rw [hempty]
                  rfl
              · next hne => exact ⟨heof', _, hpiece, (frameOf_frame hne hwhole).symm⟩
          · next herr => cases readSlice_eof heof herr

theorem readRPCFrame_spec (maxBytes : Nat) (r : StdinReader) (heof : r.source.ending = .eof) :
    (readRPCFrame size maxBytes r).2.source.ending = .eof ∧
      ∃ piece, FirstPiece r.pending piece (readRPCFrame size maxBytes r).2.pending ∧
        (readRPCFrame size maxBytes r).1 = frameOf maxBytes piece :=
  readFrameFrom_spec [] r heof (Nat.zero_le maxBytes)

/-! ## §3. Repeated calls. -/

/-- Call after call, until one fails. -/
def readFrames (size : ℕ+) (maxBytes : Nat) : Nat → StdinReader → List FrameResult
  | 0, _ => []
  | calls + 1, r =>
      match readRPCFrame size maxBytes r with
      | (.failed err, _) => [.failed err]
      | (result, r') => result :: readFrames size maxBytes calls r'

/-- The stream's pieces, then its end. -/
def framesOf (maxBytes : Nat) (stream : Bytes) : List FrameResult :=
  (pieces newline stream).map (frameOf maxBytes) ++ [.failed .eof]

theorem readFrames_eq (maxBytes calls : Nat) (r : StdinReader) (heof : r.source.ending = .eof) :
    readFrames size maxBytes calls r = (framesOf maxBytes r.pending).take calls := by
  induction calls generalizing r with
  | zero => rfl
  | succ calls ih =>
      obtain ⟨heof', piece, hpiece, hres⟩ := @readRPCFrame_spec size maxBytes r heof
      unfold readFrames
      by_cases hne : r.pending = []
      · -- nothing is left
        rw [hpiece.eq_nil hne] at hres
        have hfailed : (readRPCFrame size maxBytes r).1 = .failed .eof := hres
        split
        · next err r' hcall =>
            rw [hcall] at hfailed
            rw [hne]
            show _ = [FrameResult.failed .eof].take (calls + 1)
            rw [show err = .eof from FrameResult.failed.inj hfailed]
            simp
        · next result r' hnot hcall =>
            rw [hcall] at hfailed
            exact absurd hfailed (hnot .eof)
      · have hcons := hpiece.pieces hne
        have hpne : piece ≠ [] := by
          have hmem : piece ∈ pieces newline r.pending := by
            rw [hcons]
            exact List.mem_cons_self
          exact ((pieces_spec r.pending).1 piece hmem).1
        split
        · next err r' hcall =>
            rw [hcall] at hres
            unfold frameOf at hres
            rw [if_neg hpne] at hres
            split at hres <;> cases hres
        · next result r' _ hcall =>
            rw [hcall] at heof' hres hcons hpiece
            rw [ih r' heof']
            show _ = ((pieces newline r.pending).map (frameOf maxBytes) ++ _).take (calls + 1)
            rw [hcons, List.map_cons, List.cons_append, List.take_succ_cons, ← hres]
            rfl

/-- Standard input, as it arrives in reads of any size. -/
def stdinSource (chunks : List (Fill.Chunk UInt8)) (withLast : Bool) : Source UInt8 where
  chunks
  ending := .eof
  withLast

/-- **Framing.**  However the stream arrives and whatever the buffer and the limit
are, repeated calls give its pieces, which are the stream cut behind each newline:
a piece within the limit as it is, a longer one as oversized. -/
theorem readRPCFrame_exact (size : ℕ+) (maxBytes calls : Nat) (chunks : List (Fill.Chunk UInt8))
    (withLast : Bool) :
    let stream := chunks.flatMap (·.items)
    readFrames size maxBytes calls (newReader (stdinSource chunks withLast)) =
        ((pieces newline stream).map (frameOf maxBytes) ++ [FrameResult.failed .eof]).take calls ∧
      (pieces newline stream).flatten = stream ∧
      (∀ piece ∈ pieces newline stream, piece ≠ [] ∧ newline ∉ piece.dropLast) ∧
      ∀ piece ∈ (pieces newline stream).dropLast, piece.getLast? = some newline := by
  intro stream
  have hspec := @pieces_spec _ _ newline stream
  exact ⟨readFrames_eq maxBytes calls _ rfl, flatten_pieces stream, hspec.1, hspec.2⟩

/-! ## §4. The daemon's loop. -/

/-- `bytes.TrimSuffix` with one byte. -/
def trimSuffix (byte : UInt8) (line : Bytes) : Bytes :=
  if line.getLast? = some byte then line.dropLast else line

/-- What the loop makes of a frame; an empty line is passed over. -/
inductive Received
  | tooLarge
  | request (line : Bytes)
  deriving DecidableEq

def receive : FrameResult → Option Received
  | .frame line =>
      let line := trimSuffix carriageReturn (trimSuffix newline line)
      if line.isEmpty then none else some (.request line)
  | .oversized => some .tooLarge
  | .failed _ => none

end Jmux.Remote
