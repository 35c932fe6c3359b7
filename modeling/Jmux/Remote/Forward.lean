/-
  Jmux.Remote.Forward — a command that the relay passes on to the local socket
  (`forward_to_socket`, `remote/relay.rs`).

  The socket answers with a line.  What each read gives is decoded by itself, and
  the whole is trimmed.

  Main results:
    * `forwardToSocket_data` — what is returned, for any reads.
    * `trim_decoded_iff`     — when that is the text that was sent.
-/
import Jmux.Lib.Fill
import Jmux.Remote.LossyText
import Jmux.Remote.RelayAuth

namespace Jmux.Remote

open Jmux.Lib

/-! ## §1. The function. -/

/-- What ends the loop without an error: the socket was closed, or nothing came in
five seconds. -/
inductive ReadStop
  | closed
  | wouldBlock
  | timedOut
  deriving DecidableEq, Repr

/-- What one read of the socket gives. -/
inductive SocketRead
  | data (chunk : Fill.Chunk UInt8)
  | stop (how : ReadStop)
  | failed (err : String)

/-- The local socket: the errors that it can be met with, and what the reads give once
this has been written.  Behind the last one it is closed. -/
structure LocalSocket where
  connectError : Option String := none
  writeError   : Option String := none
  reads        : String → List SocketRead

/-- The loop, with the response so far. -/
def readResponse (response : List Char) : List SocketRead → Except String (List Char)
  | .data chunk :: rest => readResponse (response ++ utf8Lossy chunk.items) rest
  | .stop _ :: _ => .ok response
  | .failed err :: _ => .error s!"Read from socket: {err}"
  | [] => .ok response

def forwardToSocket (socket : LocalSocket) (command : String) : Except String String :=
  match socket.connectError with
  | some err => .error s!"Connect to socket: {err}"
  | none =>
      match socket.writeError with
      | some err => .error s!"Write to socket: {err}"
      | none =>
          match readResponse [] (socket.reads (command ++ "\n")) with
          | .error err => .error err
          | .ok response => .ok (Str.trim (String.ofList response))

/-! ## §2. What it returns. -/

/-- The texts of the chunks, one behind the other. -/
def decoded (chunks : List (Fill.Chunk UInt8)) : List Char :=
  chunks.flatMap fun chunk => utf8Lossy chunk.items

/-- Nothing more comes: the socket is closed, or silent. -/
inductive Ends : List SocketRead → Prop
  | closed : Ends []
  | stop (how : ReadStop) (rest : List SocketRead) : Ends (.stop how :: rest)

theorem readResponse_data (response : List Char) (chunks : List (Fill.Chunk UInt8))
    {rest : List SocketRead} (hrest : Ends rest) :
    readResponse response (chunks.map SocketRead.data ++ rest) = .ok (response ++ decoded chunks) := by
  induction chunks generalizing response with
  | nil =>
      rw [show decoded [] = [] from rfl, List.append_nil]
      cases hrest with
      | closed => rfl
      | stop how rest => rfl
  | cons chunk chunks ih =>
      show readResponse (response ++ utf8Lossy chunk.items)
        (chunks.map SocketRead.data ++ rest) = _
      rw [ih, List.append_assoc]
      rfl

/-- A socket that can be reached and answers so. -/
def answering (reads : List SocketRead) : LocalSocket where
  reads := fun _ => reads

theorem forwardToSocket_data (chunks : List (Fill.Chunk UInt8)) {rest : List SocketRead}
    (hrest : Ends rest) (command : String) :
    forwardToSocket (answering (chunks.map SocketRead.data ++ rest)) command =
      .ok (Str.trim (String.ofList (decoded chunks))) := by
  have hread := readResponse_data [] chunks hrest
  unfold forwardToSocket answering
  dsimp only
  rw [hread]
  rfl

/-! ## §3. When it is the text that was sent. -/

theorem ink_dropWhile (text : List Char) : ink (text.dropWhile Str.isWhitespace) = ink text := by
  have hsplit := congrArg ink (List.takeWhile_append_dropWhile (p := Str.isWhitespace) (l := text))
  have hwhite : ink (text.takeWhile Str.isWhitespace) = 0 := by
    unfold ink
    rw [List.countP_eq_zero]
    intro c hc
    have := List.mem_takeWhile_imp hc
    simp [this]
  rw [ink_append, hwhite] at hsplit
  omega

theorem ink_reverse (text : List Char) : ink text.reverse = ink text := List.countP_reverse

/-- Only white space is trimmed. -/
theorem ink_trimMatches (text : List Char) : ink (Str.trimMatches Str.isWhitespace text) = ink text := by
  unfold Str.trimMatches Str.trimEndMatches List.rdropWhile
  rw [ink_reverse, ink_dropWhile, ink_reverse, ink_dropWhile]

theorem utf8_eq_encode (text : String) : utf8 text = encode text.toList := by
  unfold utf8 encode
  rw [← String.utf8Encode_toList, List.utf8Encode, List.toList_data_toByteArray]

/-- The newline at the end is trimmed. -/
theorem trimMatches_line (text : List Char) :
    Str.trimMatches Str.isWhitespace (text ++ ['\n']) = Str.trimMatches Str.isWhitespace text := by
  have hend : Str.trimEndMatches Str.isWhitespace (text ++ ['\n']) =
      Str.trimEndMatches Str.isWhitespace text := by
    rw [Str.trimEndMatches_append, if_pos (by decide)]
  rw [Str.trimMatches_comm, hend, ← Str.trimMatches_comm]

/-- The pieces of a line, decoded and trimmed, are its text exactly if they are whole
characters and there was nothing to trim. -/
theorem trim_decoded_iff {text : List Char} {pieces : List Bytes}
    (hpieces : pieces.flatten = encode (text ++ ['\n'])) :
    Str.trimMatches Str.isWhitespace (pieces.flatMap utf8Lossy) = text ↔
      (∀ piece ∈ pieces, WholeChars piece) ∧ Str.trimMatches Str.isWhitespace text = text := by
  constructor
  · intro h
    have hink := congrArg ink h
    rw [ink_trimMatches] at hink
    have hline : ink (text ++ ['\n']) = ink text := by
      rw [ink_append]
      rfl
    constructor
    · refine (ink_le_decoded pieces [] (text ++ ['\n']) (fun _ hb => nomatch hb) hpieces).2 ?_
      rw [hink, hline]
    · rw [← h, Str.trimMatches_idem]
  · intro h
    obtain ⟨hwhole, htrim⟩ := h
    rw [decoded_of_whole hpieces hwhole, trimMatches_line, htrim]

/-- **The answer is passed on unaltered** exactly when every read gives whole characters
and the text neither begins nor ends with white space. -/
theorem forwardToSocket_exact_iff {text : String} {chunks : List (Fill.Chunk UInt8)}
    (hbytes : chunks.flatMap (·.items) = utf8 (text ++ "\n")) {rest : List SocketRead}
    (hrest : Ends rest) (command : String) :
    forwardToSocket (answering (chunks.map SocketRead.data ++ rest)) command = .ok text ↔
      (∀ chunk ∈ chunks, WholeChars chunk.items) ∧ Str.trim text = text := by
  have hpieces : (chunks.map (·.items)).flatten = encode (text.toList ++ ['\n']) := by
    rw [← List.flatMap_def, hbytes, utf8_eq_encode, String.toList_append]
    rfl
  have hiff := trim_decoded_iff hpieces
  have htrim : ∀ s : List Char, Str.trim (String.ofList s) = text ↔
      Str.trimMatches Str.isWhitespace s = text.toList := by
    intro s
    unfold Str.trim
    rw [String.toList_ofList, ← String.toList_inj, String.toList_ofList]
  have htext := htrim text.toList
  rw [String.ofList_toList] at htext
  rw [forwardToSocket_data chunks hrest, Except.ok.injEq, htrim, htext, decoded,
    ← List.forall_mem_map, ← hiff, List.flatMap_map]

/-- One read, with a pong. -/
def pong : Fill.Chunk UInt8 := ⟨[0x70, 0x6f, 0x6e, 0x67, 0x0a], by decide⟩

theorem forwardToSocket_exact_iff_pong :
    forwardToSocket (answering ([pong].map SocketRead.data ++ [])) "ping" = .ok "pong" ↔
      (∀ chunk ∈ [pong], WholeChars chunk.items) ∧ Str.trim "pong" = "pong" :=
  forwardToSocket_exact_iff (by decide) .closed "ping"

/-- The two bytes of an accented letter, in two reads. -/
def accented : List (Fill.Chunk UInt8) := [⟨[0xc3], by decide⟩, ⟨[0xa9, 0x0a], by decide⟩]

theorem not_forwardToSocket_exact :
    accented.flatMap (·.items) = utf8 ("é" ++ "\n") ∧
      forwardToSocket (answering (accented.map SocketRead.data ++ [])) "read" = .ok "\ufffd\ufffd" ∧
      "\ufffd\ufffd" ≠ "é" := by
  refine ⟨by decide, ?_, by decide⟩
  rw [forwardToSocket_data accented .closed]
  decide

end Jmux.Remote
