/-
  Jmux.Socket.Server — one client of the socket (`handle_client` in
  `socket/server.rs`).

  The bytes arrive in reads of any size.  A line is collected up to a limit, and a
  longer one ends the connection; a line that is V1 or V2 is dispatched and its
  answer written before the next line is read.  The handlers behind `v2::dispatch`
  are a parameter: any function of the state and the request, which may panic.

  Main results:
    * `handleClient_eq`   — the reads do not matter: the connection is served line
                             by line.
    * `isJson_unknown_iff` — when the answer to an unknown V1 command is JSON.
    * `one_reply_each_iff` — when each line has one answer.
-/
import Jmux.Lib.JsonText
import Jmux.Lib.LineStream
import Jmux.Socket.V1

namespace Jmux.Socket

open Jmux.Lib
open Jmux.Lib.JsonText

/-! ## §1. Answers. -/

/-- `v2::Response`. -/
structure V2Response (F : Type) where
  id     : Value F
  ok     : Bool
  result : Option (Value F) := none
  /-- Its code and its message. -/
  error  : Option (String × String) := none

/-- As it is serialised: what is missing is left out. -/
def V2Response.json {F : Type} (r : V2Response F) : Value F :=
  .obj ([("id", r.id), ("ok", .bool r.ok)]
    ++ (r.result.map fun v => ("result", v)).toList
    ++ (r.error.map fun e =>
      ("error", .obj [("code", .str e.1), ("message", .str e.2)])).toList)

/-- What the server uses of the rest of the program; a handler that panics gives no
response. -/
structure ServerEnv (σ F : Type) extends V1Env F where
  floatText : FloatText F
  /-- `V1_HELP_TEXT` -/
  help      : String
  /-- `v2::dispatch` of a line. -/
  v2Text    : σ → String → σ × Option (V2Response F)
  /-- `v2::dispatch` of the request that a V1 command becomes. -/
  v2Request : σ → V2Request F → σ × Option (V2Response F)

variable {σ F : Type}

def responseText (ft : FloatText F) (r : V2Response F) : List Char := print ft r.json ++ ['\n']

def helpReply (help : String) : List Char :=
  "\x7b\"ok\":true,\"result\":\x7b\"help\":".toList ++ printText help ++ ['}', '}', '\n']

def authReply : List Char :=
  "\x7b\"ok\":true,\"result\":\x7b\"authenticated\":true\x7d\x7d\n".toList

/-- The text before the name of an unknown command. -/
def unknownHead : List Char :=
  "\x7b\"ok\":false,\"error\":\x7b\"code\":\"unknown_v1_command\",\"message\":".toList
    ++ "\"Unknown command: ".toList

/-- The name is put into the text as it is. -/
def unknownReply (command : String) : List Char :=
  unknownHead ++ command.toList ++ ['"', '}', '}', '\n']

def isV1 (line : String) : Bool :=
  decide (Str.trim line ≠ "") && !Str.startsWith (Str.trim line) "\x7b"

/-- `v1::dispatch`. -/
def v1Reply (env : ServerEnv σ F) (s : σ) (line : String) : σ × Option (List Char) :=
  match dispatch env.toV1Env line.toList with
  | .request req =>
      let served := env.v2Request s req
      (served.1, served.2.map (responseText env.floatText))
  | .answered .help => (s, some (helpReply env.help))
  | .answered _ => (s, some authReply)
  | .unknown command => (s, some (unknownReply command))

def v2Reply (env : ServerEnv σ F) (s : σ) (line : String) : σ × Option (List Char) :=
  let served := env.v2Text s line
  (served.1, served.2.map (responseText env.floatText))

/-! ## §2. One line. -/

/-- `std::str::from_utf8`. -/
def fromUtf8 (bytes : List UInt8) : Option String := String.fromUTF8? bytes.toByteArray

inductive Turn where
  | skipped
  /-- The task of the handler has failed; so does the connection. -/
  | panicked
  | answered (text : List Char)

def Turn.of : Option (List Char) → Turn
  | some text => .answered text
  | none => .panicked

def serveLine (env : ServerEnv σ F) (s : σ) (bytes : List UInt8) : σ × Turn :=
  -- a line that is no text counts as blank
  let trimmed := ((fromUtf8 bytes).map Str.trim).getD ""
  if trimmed = "" then (s, .skipped)
  else
    let served := if isV1 trimmed then v1Reply env s trimmed else v2Reply env s trimmed
    (served.1, .of served.2)

/-! ## §3. The connection. -/

/-- What one read gives. -/
structure Chunk where
  bytes    : List UInt8
  nonempty : bytes ≠ []

/-- How the reads end. -/
inductive Ending where
  | eof
  /-- The client was silent too long, or a read failed. -/
  | cut
  deriving DecidableEq

/-- `MAX_REQUEST_LEN`. -/
def maxRequestLen : Nat := 1024 * 1024

def newline : UInt8 := 10

/-- What the inner loop gives. -/
inductive Reading where
  | line (bytes : List UInt8) (rest : List Chunk)
  /-- The stream is at its end. -/
  | last (bytes : List UInt8)
  | closed

/-- `consume`: what is left of a read comes first. -/
def Chunk.drop (chunk : Chunk) (n : Nat) (rest : List Chunk) : List Chunk :=
  if h : chunk.bytes.drop n ≠ [] then ⟨chunk.bytes.drop n, h⟩ :: rest else rest

/-- The bounded line read. -/
def readLine (ending : Ending) : List UInt8 → List Chunk → Reading
  | buf, [] =>
      match ending with
      | .eof => .last buf
      | .cut => .closed
  | buf, chunk :: rest =>
      if newline ∈ chunk.bytes then
        let pos := chunk.bytes.idxOf newline
        if buf.length + pos > maxRequestLen then .closed
        else .line (buf ++ chunk.bytes.take pos) (chunk.drop (pos + 1) rest)
      else
        let buf := buf ++ chunk.bytes
        if buf.length > maxRequestLen then .closed else readLine ending buf rest

def unread (chunks : List Chunk) : List UInt8 := (chunks.map (·.bytes)).flatten

/-- A line that was dispatched, and what was written for it. -/
structure Exchange where
  line       : List UInt8
  terminated : Bool
  /-- Nothing, where the handler has panicked. -/
  reply      : Option (List Char)

theorem unread_drop (chunk : Chunk) (n : Nat) (rest : List Chunk) :
    unread (chunk.drop n rest) = chunk.bytes.drop n ++ unread rest := by
  unfold Chunk.drop
  split
  · rfl
  next h =>
    have hnil : chunk.bytes.drop n = [] := by simpa using h
    rw [hnil, List.nil_append]

/-- A line takes its newline with it. -/
theorem readLine_shortens {ending : Ending} {buf bytes : List UInt8} {chunks rest : List Chunk}
    (h : readLine ending buf chunks = .line bytes rest) :
    (unread rest).length < (unread chunks).length := by
  induction chunks generalizing buf with
  | nil =>
      unfold readLine at h
      split at h <;> cases h
  | cons chunk chunks ih =>
      have hcons : unread (chunk :: chunks) = chunk.bytes ++ unread chunks := rfl
      unfold readLine at h
      dsimp only at h
      split at h
      next hmem =>
        split at h
        · cases h
        · obtain ⟨_, rfl⟩ := Reading.line.inj h
          have hpos := List.idxOf_lt_length_of_mem hmem
          rw [unread_drop, hcons, List.length_append, List.length_append, List.length_drop]
          omega
      · split at h
        · cases h
        · have hless := ih h
          rw [hcons, List.length_append]
          omega

/-- `handle_client`: the state that is left, and the lines that were dispatched. -/
def handleClient (env : ServerEnv σ F) (ending : Ending) (s : σ) (chunks : List Chunk) :
    σ × List Exchange :=
  match _h : readLine ending [] chunks with
  | .closed => (s, [])
  | .last bytes =>
      if bytes = [] ∨ bytes.length > maxRequestLen then (s, [])
      else match serveLine env s bytes with
        | (s, .skipped) => (s, [])
        | (s, .panicked) => (s, [⟨bytes, false, none⟩])
        | (s, .answered text) => (s, [⟨bytes, false, some text⟩])
  | .line bytes rest =>
      if bytes.length > maxRequestLen then (s, [])
      else match serveLine env s bytes with
        | (s, .skipped) => handleClient env ending s rest
        | (s, .panicked) => (s, [⟨bytes, true, none⟩])
        | (s, .answered text) =>
            let after := handleClient env ending s rest
            (after.1, ⟨bytes, true, some text⟩ :: after.2)
termination_by (unread chunks).length
decreasing_by all_goals exact readLine_shortens _h

/-! ## §4. The reads do not matter. -/

/-- The lines of a stream that are terminated. -/
def linesOf (bytes : List UInt8) : List (List UInt8) := (bytes.splitOn newline).dropLast

/-- What stands behind the last newline. -/
def tailOf (bytes : List UInt8) : List UInt8 := (bytes.splitOn newline).getLastD []

theorem linesOf_line {l : List UInt8} (hl : newline ∉ l) (rest : List UInt8) :
    linesOf (l ++ newline :: rest) = l :: linesOf rest := LineStream.ended_line hl rest

theorem tailOf_line {l : List UInt8} (hl : newline ∉ l) (rest : List UInt8) :
    tailOf (l ++ newline :: rest) = tailOf rest := LineStream.tail_line hl rest

theorem linesOf_of_notMem {l : List UInt8} (hl : newline ∉ l) : linesOf l = [] :=
  LineStream.ended_of_notMem hl

theorem tailOf_of_notMem {l : List UInt8} (hl : newline ∉ l) : tailOf l = l :=
  LineStream.tail_of_notMem hl

/-- The lines in order; the text behind the last newline counts at the end of the stream. -/
def serveLines (env : ServerEnv σ F) (ending : Ending) (tail : List UInt8) :
    σ → List (List UInt8) → σ × List Exchange
  | s, [] =>
      if tail = [] ∨ tail.length > maxRequestLen ∨ ending = .cut then (s, [])
      else match serveLine env s tail with
        | (s, .skipped) => (s, [])
        | (s, .panicked) => (s, [⟨tail, false, none⟩])
        | (s, .answered text) => (s, [⟨tail, false, some text⟩])
  | s, l :: ls =>
      if l.length > maxRequestLen then (s, [])
      else match serveLine env s l with
        | (s, .skipped) => serveLines env ending tail s ls
        | (s, .panicked) => (s, [⟨l, true, none⟩])
        | (s, .answered text) =>
            let after := serveLines env ending tail s ls
            (after.1, ⟨l, true, some text⟩ :: after.2)

/-- What the inner loop gives, from the bytes alone. -/
theorem readLine_spec (ending : Ending) (chunks : List Chunk) :
    ∀ buf : List UInt8, newline ∉ buf → buf.length ≤ maxRequestLen →
      (∃ l rest, buf ++ unread chunks = l ++ newline :: rest ∧ newline ∉ l ∧
        ((maxRequestLen < l.length ∧ readLine ending buf chunks = .closed) ∨
          l.length ≤ maxRequestLen ∧ ∃ left, readLine ending buf chunks = .line l left ∧
            unread left = rest)) ∨
      (newline ∉ buf ++ unread chunks ∧
        ((maxRequestLen < (buf ++ unread chunks).length ∨ ending = .cut) ∧
            readLine ending buf chunks = .closed ∨
          ((buf ++ unread chunks).length ≤ maxRequestLen ∧ ending = .eof) ∧
            readLine ending buf chunks = .last (buf ++ unread chunks))) := by
  induction chunks with
  | nil =>
      intro buf hbuf hshort
      refine .inr ?_
      have hall : buf ++ unread [] = buf := List.append_nil buf
      rw [hall]
      refine ⟨hbuf, ?_⟩
      cases ending with
      | eof => exact .inr ⟨⟨hshort, rfl⟩, rfl⟩
      | cut => exact .inl ⟨.inr rfl, rfl⟩
  | cons chunk chunks ih =>
      intro buf hbuf hshort
      have hcons : unread (chunk :: chunks) = chunk.bytes ++ unread chunks := rfl
      unfold readLine
      dsimp only
      by_cases hmem : newline ∈ chunk.bytes
      · -- the line ends in this read
        rw [if_pos hmem]
        obtain ⟨front, back, hsplit, hfront⟩ := List.eq_append_cons_of_mem hmem
        have hpos : chunk.bytes.idxOf newline = front.length := by
          rw [hsplit, List.idxOf_append, if_neg hfront, List.idxOf_cons_self, Nat.zero_add]
        have htake : chunk.bytes.take front.length = front := by
          rw [hsplit, List.take_left]
        have hdrop : chunk.bytes.drop (front.length + 1) = back := by
          rw [hsplit, List.drop_length_add_append]
          rfl
        rw [hpos, htake]
        refine .inl ⟨buf ++ front, back ++ unread chunks, ?_, ?_, ?_⟩
        · rw [hcons, hsplit, List.append_assoc, List.append_assoc]
          rfl
        · rw [List.mem_append]
          rintro (h | h)
          · exact hbuf h
          · exact hfront h
        · by_cases hlong : buf.length + front.length > maxRequestLen
          · rw [if_pos hlong]
            exact .inl ⟨by rw [List.length_append]; exact hlong, rfl⟩
          · rw [if_neg hlong]
            refine .inr ⟨by rw [List.length_append]; exact Nat.le_of_not_lt hlong, _, rfl, ?_⟩
            rw [unread_drop, hdrop]
      · rw [if_neg hmem]
        have hmore : newline ∉ buf ++ chunk.bytes := by
          rw [List.mem_append]
          rintro (h | h)
          · exact hbuf h
          · exact hmem h
        rw [hcons, ← List.append_assoc]
        by_cases hlong : (buf ++ chunk.bytes).length > maxRequestLen
        · -- too long already, wherever the line ends
          rw [if_pos hlong]
          by_cases hlater : newline ∈ unread chunks
          · obtain ⟨front, back, hsplit, hfront⟩ := List.eq_append_cons_of_mem hlater
            refine .inl ⟨buf ++ chunk.bytes ++ front, back, ?_, ?_, .inl ⟨?_, rfl⟩⟩
            · rw [hsplit]
              simp only [List.append_assoc]
            · rw [List.mem_append]
              rintro (h | h)
              · exact hmore h
              · exact hfront h
            · rw [List.length_append]
              omega
          · refine .inr ⟨?_, .inl ⟨.inl ?_, rfl⟩⟩
            · rw [List.mem_append]
              rintro (h | h)
              · exact hmore h
              · exact hlater h
            · rw [List.length_append]
              omega
        · rw [if_neg hlong]
          exact ih _ hmore (Nat.le_of_not_lt hlong)

theorem handleClient_closed (env : ServerEnv σ F) {ending : Ending} (s : σ) {chunks : List Chunk}
    (h : readLine ending [] chunks = .closed) : handleClient env ending s chunks = (s, []) := by
  unfold handleClient
  split
  · rfl
  next hlast =>
    rw [h] at hlast
    cases hlast
  next hline =>
    rw [h] at hline
    cases hline

theorem handleClient_last (env : ServerEnv σ F) {ending : Ending} (s : σ) {chunks : List Chunk}
    {bytes : List UInt8} (h : readLine ending [] chunks = .last bytes) :
    handleClient env ending s chunks =
      if bytes = [] ∨ bytes.length > maxRequestLen then (s, [])
      else match serveLine env s bytes with
        | (s, .skipped) => (s, [])
        | (s, .panicked) => (s, [⟨bytes, false, none⟩])
        | (s, .answered text) => (s, [⟨bytes, false, some text⟩]) := by
  rw [handleClient]
  split
  next hclosed =>
    rw [h] at hclosed
    cases hclosed
  next hlast =>
    rw [h] at hlast
    obtain rfl := Reading.last.inj hlast
    rfl
  next hline =>
    rw [h] at hline
    cases hline

theorem handleClient_line (env : ServerEnv σ F) {ending : Ending} (s : σ)
    {chunks rest : List Chunk} {bytes : List UInt8}
    (h : readLine ending [] chunks = .line bytes rest) :
    handleClient env ending s chunks =
      if bytes.length > maxRequestLen then (s, [])
      else match serveLine env s bytes with
        | (s, .skipped) => handleClient env ending s rest
        | (s, .panicked) => (s, [⟨bytes, true, none⟩])
        | (s, .answered text) =>
            let after := handleClient env ending s rest
            (after.1, ⟨bytes, true, some text⟩ :: after.2) := by
  rw [handleClient]
  split
  next hclosed =>
    rw [h] at hclosed
    cases hclosed
  next hlast =>
    rw [h] at hlast
    cases hlast
  next hline =>
    rw [h] at hline
    obtain ⟨rfl, rfl⟩ := Reading.line.inj hline
    rfl

/-- **The reads do not matter**: the connection is served line by line. -/
theorem handleClient_eq (env : ServerEnv σ F) (ending : Ending) (s : σ) (chunks : List Chunk) :
    handleClient env ending s chunks =
      serveLines env ending (tailOf (unread chunks)) s (linesOf (unread chunks)) := by
  obtain ⟨n, hn⟩ : ∃ n, (unread chunks).length = n := ⟨_, rfl⟩
  induction n using Nat.strong_induction_on generalizing s chunks with
  | _ n ih =>
      subst hn
      rcases readLine_spec ending chunks [] List.not_mem_nil (Nat.zero_le _) with
        ⟨l, rest, hall, hl, hread⟩ | ⟨hnone, hread⟩
      · rw [List.nil_append] at hall
        rw [hall, linesOf_line hl, tailOf_line hl]
        unfold serveLines
        rcases hread with ⟨hlong, hclosed⟩ | ⟨hshort, left, hline, hleft⟩
        · rw [if_pos hlong, handleClient_closed env s hclosed]
        · have hless := readLine_shortens hline
          have hrec : ∀ s, handleClient env ending s left =
              serveLines env ending (tailOf rest) s (linesOf rest) := by
            intro s
            rw [← hleft]
            exact ih _ hless s left rfl
          rw [handleClient_line env s hline]
          simp only [hrec]
      · rw [List.nil_append] at hnone hread
        rw [linesOf_of_notMem hnone, tailOf_of_notMem hnone]
        unfold serveLines
        rcases hread with ⟨hend, hclosed⟩ | ⟨⟨hshort, heof⟩, hlast⟩
        · rw [if_pos (.inr hend), handleClient_closed env s hclosed]
        · rw [handleClient_last env s hlast]
          simp [heof]

/-! ## §5. Which answers are one line of JSON. -/

/-- A line of JSON, and the newline after it. -/
def IsAnswer (text : List Char) : Prop :=
  ∃ line, text = line ++ ['\n'] ∧ IsJson line ∧ ∀ c ∈ line, c ≠ '\n'

theorem isAnswer_append_iff (line : List Char) :
    IsAnswer (line ++ ['\n']) ↔ IsJson line ∧ ∀ c ∈ line, c ≠ '\n' := by
  constructor
  · rintro ⟨other, heq, hjson, hline⟩
    rw [List.append_cancel_right heq]
    exact ⟨hjson, hline⟩
  · rintro ⟨hjson, hline⟩
    exact ⟨line, rfl, hjson, hline⟩

theorem isAnswer_response (ft : FloatText F) (r : V2Response F) :
    IsAnswer (responseText ft r) := by
  have hw := writes_print ft r.json
  exact (isAnswer_append_iff _).mpr ⟨hw.isJson, hw.line⟩

/-- The help text is put in as JSON. -/
theorem helpReply_eq (ft : FloatText F) (help : String) :
    helpReply help =
      print ft (.obj [("ok", .bool true), ("result", .obj [("help", .str help)])]) ++ ['\n'] := by
  have hok : printText "ok" = ['"', 'o', 'k', '"'] := by decide
  have hresult : printText "result" = ['"', 'r', 'e', 's', 'u', 'l', 't', '"'] := by decide
  have hhelp : printText "help" = ['"', 'h', 'e', 'l', 'p', '"'] := by decide
  have hprint : print ft (.obj [("ok", .bool true), ("result", .obj [("help", .str help)])]) =
      '{' :: [','].intercalate [printText "ok" ++ ':' :: ['t', 'r', 'u', 'e'],
        printText "result" ++ ':' ::
          ('{' :: [','].intercalate [printText "help" ++ ':' :: printText help] ++ ['}'])] ++
        ['}'] := rfl
  rw [hprint, hok, hresult, hhelp, List.intercalate_cons_cons, List.intercalate_singleton,
    List.intercalate_singleton]
  unfold helpReply
  simp only [List.append_assoc, List.cons_append, List.nil_append]
  rfl

theorem isAnswer_help (ft : FloatText F) (help : String) : IsAnswer (helpReply help) := by
  rw [helpReply_eq ft]
  have hw := writes_print ft (.obj [("ok", .bool true), ("result", .obj [("help", .str help)])])
  exact (isAnswer_append_iff _).mpr ⟨hw.isJson, hw.line⟩

theorem isAnswer_auth : IsAnswer authReply := by
  refine ⟨authReply.dropLast, by decide, ⟨⟨.after, []⟩, by decide, rfl, .inl rfl⟩, ?_⟩
  intro c hc
  have hall : (authReply.dropLast.all fun c => c != '\n') = true := by decide
  simpa using List.all_eq_true.mp hall c hc

/-- The name leads from inside the message back to inside a text in the same place. -/
def Quotable (command : List Char) : Prop :=
  exec step ⟨.text false, [.object, .object]⟩ command = some ⟨.text false, [.object, .object]⟩

instance (command : List Char) : Decidable (Quotable command) :=
  inferInstanceAs (Decidable (_ = _))

/-- **When the answer to an unknown command is JSON.** -/
theorem isJson_unknown_iff (command : List Char) :
    IsJson (unknownHead ++ command ++ ['"', '}', '}']) ↔ Quotable command := by
  have hhead : exec step ⟨.value, []⟩ unknownHead = some ⟨.text false, [.object, .object]⟩ := by
    decide
  unfold IsJson Quotable
  constructor
  · rintro ⟨r, hrun, hdone⟩
    obtain ⟨r₁, hfront, hback⟩ := exec_append.mp hrun
    obtain ⟨r₀, hr₀, hcommand⟩ := exec_append.mp hfront
    rw [hhead] at hr₀
    obtain rfl := Option.some.inj hr₀
    rw [hcommand, (closes_iff r₁).mp ⟨r, hback, hdone⟩]
  · intro hcommand
    obtain ⟨r, hback, hdone⟩ := (closes_iff _).mpr rfl
    exact ⟨r, exec_append.mpr ⟨_, exec_append.mpr ⟨_, hhead, hcommand⟩, hback⟩, hdone⟩

/-! ## §6. The name of an unknown command has no newline. -/

/-- A character of a text below U+0080 is one of its bytes. -/
theorem newline_mem_of_fromUtf8 {bytes : List UInt8} {text : String}
    (h : fromUtf8 bytes = some text) (hmem : '\n' ∈ text.toList) : newline ∈ bytes := by
  have hbytes : text.toByteArray = bytes.toByteArray := by
    unfold fromUtf8 String.fromUTF8? at h
    split at h
    · obtain rfl := Option.some.inj h
      rfl
    · cases h
  have hencoded : text.toList.flatMap String.utf8EncodeChar = bytes := by
    have hlists := congrArg (fun b : ByteArray => b.data.toList)
      (String.utf8Encode_toList.trans hbytes)
    simpa [List.utf8Encode] using hlists
  rw [← hencoded]
  exact List.mem_flatMap.mpr ⟨'\n', hmem, by decide⟩

theorem mem_trim {c : Char} {s : String} (h : c ∈ (Str.trim s).toList) : c ∈ s.toList := by
  unfold Str.trim at h
  rw [String.toList_ofList] at h
  exact Str.mem_of_mem_trimMatches h

theorem mem_command {c : Char} {line : List Char} (h : c ∈ (parseLine line).command.toList) :
    c ∈ line := by
  have htrimmed : c ∈ Str.trimMatches Str.isWhitespace line := by
    unfold parseLine at h
    dsimp only at h
    split at h
    next command rest hsplit =>
      unfold splitOnce at hsplit
      split at hsplit
      · obtain ⟨rfl, _⟩ := Prod.mk.inj (Option.some.inj hsplit)
        rw [String.toList_ofList] at h
        exact (List.takeWhile_prefix _).subset h
      · cases hsplit
    · rwa [String.toList_ofList] at h
  exact Str.mem_of_mem_trimMatches htrimmed

/-! ## §7. One answer for each line. -/

/-- The handler does not panic, or the name of an unknown command fits into the answer. -/
def AnswersV1 (env : ServerEnv σ F) (s : σ) (line : String) : Prop :=
  match dispatch env.toV1Env line.toList with
  | .request req => (env.v2Request s req).2.isSome = true
  | .answered _ => True
  | .unknown command => Quotable command.toList

/-- The request behind the line has an answer that is JSON. -/
def Answers (env : ServerEnv σ F) (s : σ) (line : String) : Prop :=
  if isV1 line then AnswersV1 env s line else (env.v2Text s line).2.isSome = true

/-- The line is text, and blank or a request that is answered. -/
def Answerable (env : ServerEnv σ F) (s : σ) (bytes : List UInt8) : Prop :=
  ∃ text, fromUtf8 bytes = some text ∧ (Str.trim text = "" ∨ Answers env s (Str.trim text))

/-- The lines before the first one that is too long, each in the state in which its turn
comes. -/
def Attended (env : ServerEnv σ F) : σ → List (List UInt8) → Prop
  | _, [] => True
  | s, l :: ls =>
      maxRequestLen < l.length ∨ Answerable env s l ∧ Attended env (serveLine env s l).1 ls

def isBlank (bytes : List UInt8) : Bool := (fromUtf8 bytes).any fun text => Str.trim text = ""

/-- The lines that are requests. -/
def requests (lines : List (List UInt8)) : List (List UInt8) :=
  (lines.takeWhile fun l => decide (l.length ≤ maxRequestLen)).filter fun l => !isBlank l

/-- What a client that reads one line for each of its requests relies on. -/
structure OneReplyEach (env : ServerEnv σ F) (ending : Ending) (s : σ) (chunks : List Chunk) :
    Prop where
  /-- The reads do not matter. -/
  unsplit  : ∀ chunks', unread chunks' = unread chunks →
    handleClient env ending s chunks' = handleClient env ending s chunks
  /-- The requests are dispatched in their order, and nothing else is. -/
  inOrder  : ((handleClient env ending s chunks).2.filter (·.terminated)).map (·.line) =
    requests (linesOf (unread chunks))
  answered : ∀ x ∈ (handleClient env ending s chunks).2, x.terminated = true →
    ∃ text, x.reply = some text ∧ IsAnswer text
  /-- Nothing is dispatched from a line that is too long, or from behind it. -/
  stops    : (∃ l ∈ linesOf (unread chunks), maxRequestLen < l.length) →
    ∀ x ∈ (handleClient env ending s chunks).2, x.terminated = true

/-- Every arm of `dispatch` makes a request or answers. -/
theorem build_known (env : V1Env F) (l : V1Line) (command : V1Command) (name : String) :
    command.build env l ≠ .unknown name := by
  intro h
  cases command <;> first
    | cases h
    | (unfold V1Command.build at h
       dsimp only at h
       split at h <;> cases h)

theorem unknown_command {env : V1Env F} {line : List Char} {name : String}
    (h : dispatch env line = .unknown name) : name = (parseLine line).command := by
  unfold dispatch at h
  dsimp only at h
  split at h
  · exact absurd h (build_known env _ _ name)
  · exact (Dispatched.unknown.inj h).symm

theorem v1Reply_answered {env : ServerEnv σ F} {s : σ} {line : String} {command : V1Command}
    (h : dispatch env.toV1Env line.toList = .answered command) :
    ∃ answer, v1Reply env s line = (s, some answer) ∧ IsAnswer answer := by
  unfold v1Reply
  rw [h]
  split
  next hreq => cases hreq
  · exact ⟨_, rfl, isAnswer_help env.floatText env.help⟩
  · exact ⟨_, rfl, isAnswer_auth⟩
  next hunknown => cases hunknown

/-- What a V1 command is answered with. -/
theorem v1Reply_answer (env : ServerEnv σ F) (s : σ) {line : String}
    (hline : ∀ c ∈ line.toList, c ≠ '\n') :
    (∃ answer, (v1Reply env s line).2 = some answer ∧ IsAnswer answer) ↔
      AnswersV1 env s line := by
  unfold AnswersV1
  cases hdispatch : dispatch env.toV1Env line.toList with
  | request req =>
      unfold v1Reply
      rw [hdispatch]
      cases hserved : (env.v2Request s req).2 with
      | none => simp [hserved]
      | some r => simpa [hserved] using isAnswer_response env.floatText r
  | answered command =>
      obtain ⟨answer, hreply, hanswer⟩ := @v1Reply_answered σ F env s line command hdispatch
      exact iff_true_intro ⟨answer, congrArg Prod.snd hreply, hanswer⟩
  | unknown command =>
      have hcommand : ∀ c ∈ command.toList, c ≠ '\n' := by
        intro c hc
        rw [unknown_command hdispatch] at hc
        exact hline c (mem_command hc)
      have hlast : unknownReply command =
          (unknownHead ++ command.toList ++ ['"', '}', '}']) ++ ['\n'] := by
        unfold unknownReply
        rw [List.append_assoc _ ['"', '}', '}']]
        rfl
      have hfree : ∀ c ∈ unknownHead ++ command.toList ++ ['"', '}', '}'], c ≠ '\n' := by
        have hhead : (unknownHead.all fun c => c != '\n') = true := by decide
        intro c hc
        rcases List.mem_append.mp hc with hc | hc
        · rcases List.mem_append.mp hc with hc | hc
          · simpa using List.all_eq_true.mp hhead c hc
          · exact hcommand c hc
        · rintro rfl
          simp at hc
      unfold v1Reply
      rw [hdispatch]
      dsimp only
      rw [← isJson_unknown_iff]
      constructor
      · rintro ⟨answer, hsome, hanswer⟩
        obtain rfl := Option.some.inj hsome
        rw [hlast] at hanswer
        exact ((isAnswer_append_iff _).mp hanswer).1
      · intro hjson
        exact ⟨_, rfl, hlast ▸ (isAnswer_append_iff _).mpr ⟨hjson, hfree⟩⟩

/-- What a turn is, for a line that is a request. -/
theorem serveLine_request (env : ServerEnv σ F) (s : σ) {bytes : List UInt8} {text : String}
    (hl : newline ∉ bytes) (htext : fromUtf8 bytes = some text) (hne : Str.trim text ≠ "") :
    ∃ reply, (serveLine env s bytes).2 = .of reply ∧
      ((∃ answer, reply = some answer ∧ IsAnswer answer) ↔ Answers env s (Str.trim text)) := by
  have hplain : ∀ c ∈ (Str.trim text).toList, c ≠ '\n' := by
    rintro c hc rfl
    exact hl (newline_mem_of_fromUtf8 htext (mem_trim hc))
  unfold serveLine Answers
  rw [htext]
  dsimp only [Option.map_some, Option.getD_some]
  rw [if_neg hne]
  cases hv1 : isV1 (Str.trim text) with
  | false =>
      refine ⟨_, rfl, ?_⟩
      simp only [Bool.false_eq_true, if_false]
      unfold v2Reply
      cases hserved : (env.v2Text s (Str.trim text)).2 with
      | none => simp [hserved]
      | some r => simpa [hserved] using isAnswer_response env.floatText r
  | true =>
      simp only [if_true]
      exact ⟨(v1Reply env s (Str.trim text)).2, rfl, v1Reply_answer env s hplain⟩

/-- A line that is skipped is no text, or blank. -/
theorem serveLine_skipped (env : ServerEnv σ F) (s : σ) {bytes : List UInt8}
    (h : fromUtf8 bytes = none ∨ isBlank bytes = true) : serveLine env s bytes = (s, .skipped) := by
  have htrimmed : ((fromUtf8 bytes).map Str.trim).getD "" = "" := by
    cases htext : fromUtf8 bytes with
    | none => rfl
    | some text =>
        rcases h with h | h
        · rw [h] at htext
          cases htext
        · simpa [isBlank, htext] using h
  unfold serveLine
  dsimp only
  rw [if_pos htrimmed]

/-- What becomes of a line: no text and skipped, blank and skipped, or a request. -/
theorem serveLine_cases (env : ServerEnv σ F) (s : σ) {bytes : List UInt8}
    (hl : newline ∉ bytes) :
    (fromUtf8 bytes = none ∧ isBlank bytes = false ∧ serveLine env s bytes = (s, .skipped)) ∨
    (Answerable env s bytes ∧ isBlank bytes = true ∧ serveLine env s bytes = (s, .skipped)) ∨
    (isBlank bytes = false ∧ ∃ reply, serveLine env s bytes = ((serveLine env s bytes).1, .of reply) ∧
      ((∃ answer, reply = some answer ∧ IsAnswer answer) ↔ Answerable env s bytes)) := by
  cases htext : fromUtf8 bytes with
  | none => exact .inl ⟨rfl, by simp [isBlank, htext], serveLine_skipped env s (.inl htext)⟩
  | some text =>
      by_cases hblank : Str.trim text = ""
      · have hskip : isBlank bytes = true := by simp [isBlank, htext, hblank]
        exact .inr (.inl ⟨⟨text, htext, .inl hblank⟩, hskip, serveLine_skipped env s (.inr hskip)⟩)
      · obtain ⟨reply, hturn, hiff⟩ := serveLine_request env s hl htext hblank
        refine .inr (.inr ⟨by simp [isBlank, htext, hblank], reply, ?_, hiff.trans ?_⟩)
        · rw [← hturn]
        · unfold Answerable
          rw [htext]
          simp [hblank]

theorem requests_cons {l : List UInt8} (hshort : l.length ≤ maxRequestLen)
    (ls : List (List UInt8)) :
    requests (l :: ls) = if isBlank l then requests ls else l :: requests ls := by
  unfold requests
  simp only [List.takeWhile_cons, hshort, decide_true, if_true, List.filter_cons]
  cases isBlank l <;> rfl

/-- The exchanges of the lines that are terminated. -/
def dispatched (env : ServerEnv σ F) : σ → List (List UInt8) → List Exchange
  | _, [] => []
  | s, l :: ls =>
      if l.length > maxRequestLen then []
      else match serveLine env s l with
        | (s, .skipped) => dispatched env s ls
        | (_, .panicked) => [⟨l, true, none⟩]
        | (s, .answered text) => ⟨l, true, some text⟩ :: dispatched env s ls

theorem serveLines_terminated (env : ServerEnv σ F) (ending : Ending) (tail : List UInt8)
    (ls : List (List UInt8)) (s : σ) :
    (serveLines env ending tail s ls).2.filter (·.terminated) = dispatched env s ls := by
  induction ls generalizing s with
  | nil =>
      unfold serveLines dispatched
      split
      · rfl
      · split <;> rfl
  | cons l ls ih =>
      unfold serveLines dispatched
      split
      · rfl
      · split
        · exact ih _
        · rfl
        next s' text _ =>
          rw [List.filter_cons_of_pos rfl, ih]

/-- The lines that are dispatched are at most the requests. -/
theorem dispatched_le (env : ServerEnv σ F) {ls : List (List UInt8)}
    (hls : ∀ l ∈ ls, newline ∉ l) (s : σ) :
    (dispatched env s ls).length ≤ (requests ls).length := by
  induction ls generalizing s with
  | nil => exact Nat.zero_le _
  | cons l ls ih =>
      obtain ⟨hl, hrest⟩ := List.forall_mem_cons.mp hls
      unfold dispatched
      split
      · exact Nat.zero_le _
      next hshort =>
        have hcons := requests_cons (Nat.le_of_not_lt hshort) ls
        rcases serveLine_cases env s hl with ⟨_, hno, hskip⟩ | ⟨_, hyes, hskip⟩ | ⟨hno, reply, hof, _⟩
        · rw [hskip, hcons, hno]
          exact Nat.le_succ_of_le (ih hrest s)
        · rw [hskip, hcons, hyes]
          exact ih hrest s
        · rw [hof, hcons, hno]
          cases reply with
          | none => exact Nat.succ_le_succ (Nat.zero_le _)
          | some text => exact Nat.succ_le_succ (ih hrest _)

/-- **Line by line**: the dispatched lines are the requests, each with an answer, exactly when
every line can be answered when its turn comes. -/
theorem attended_iff (env : ServerEnv σ F) {ls : List (List UInt8)}
    (hls : ∀ l ∈ ls, newline ∉ l) (s : σ) :
    ((dispatched env s ls).map (·.line) = requests ls ∧
      ∀ x ∈ dispatched env s ls, ∃ text, x.reply = some text ∧ IsAnswer text) ↔
      Attended env s ls := by
  induction ls generalizing s with
  | nil => simp [dispatched, requests, Attended]
  | cons l ls ih =>
      obtain ⟨hl, hrest⟩ := List.forall_mem_cons.mp hls
      unfold dispatched Attended
      by_cases hlong : maxRequestLen < l.length
      · have hnone : requests (l :: ls) = [] := by
          unfold requests
          rw [List.takeWhile_cons_of_neg (by simpa using hlong)]
          rfl
        rw [if_pos hlong, hnone]
        simp [hlong]
      · rw [if_neg hlong, requests_cons (Nat.le_of_not_lt hlong) ls, or_iff_right hlong]
        rcases serveLine_cases env s hl with
          ⟨htext, hno, hskip⟩ | ⟨hcan, hyes, hskip⟩ | ⟨hno, reply, hof, hiff⟩
        · -- a request that has no answer: one exchange is missing
          rw [hskip, hno]
          dsimp only
          constructor
          · rintro ⟨hlines, _⟩
            have hle := dispatched_le env hrest s
            have hlen := congrArg List.length hlines
            simp at hlen
            omega
          · rintro ⟨⟨text, hsome, _⟩, _⟩
            rw [htext] at hsome
            cases hsome
        · rw [hskip, hyes]
          dsimp only
          rw [if_pos rfl, ih hrest s]
          exact ⟨fun h => ⟨hcan, h⟩, fun h => h.2⟩
        · rw [← hiff, ← ih hrest]
          rw [hof, hno]
          cases reply with
          | none =>
              constructor
              · rintro ⟨_, hall⟩
                obtain ⟨text, hnone, _⟩ := hall _ List.mem_cons_self
                cases hnone
              · rintro ⟨⟨answer, hnone, _⟩, _⟩
                cases hnone
          | some text =>
              show (_ :: _ = _ :: _ ∧ ∀ x ∈ _ :: _, _) ↔ _
              rw [List.cons.injEq, List.forall_mem_cons]
              constructor
              · rintro ⟨⟨_, hlines⟩, hfirst, hall⟩
                exact ⟨hfirst, hlines, hall⟩
              · rintro ⟨hfirst, hlines, hall⟩
                exact ⟨⟨rfl, hlines⟩, hfirst, hall⟩

/-! ## §8. The connection as the client sees it. -/

theorem notMem_of_mem_linesOf {bytes : List UInt8} : ∀ l ∈ linesOf bytes, newline ∉ l := by
  induction bytes using (LineStream.line_induction newline) with
  | rest l h =>
      rw [linesOf_of_notMem h]
      exact fun _ hl => absurd hl List.not_mem_nil
  | line l rest h ih =>
      rw [linesOf_line h]
      exact List.forall_mem_cons.mpr ⟨h, ih⟩

/-- A line that is too long keeps the text behind the last newline from being dispatched. -/
theorem serveLines_stops (env : ServerEnv σ F) (ending : Ending) (tail : List UInt8)
    {ls : List (List UInt8)} (h : ∃ l ∈ ls, maxRequestLen < l.length) (s : σ) :
    ∀ x ∈ (serveLines env ending tail s ls).2, x.terminated = true := by
  induction ls generalizing s with
  | nil =>
      obtain ⟨l, hl, _⟩ := h
      cases hl
  | cons first ls ih =>
      unfold serveLines
      split
      · exact fun _ hx => absurd hx List.not_mem_nil
      next hshort =>
        have hlater : ∃ l ∈ ls, maxRequestLen < l.length := by
          obtain ⟨l, hl, hlong⟩ := h
          rcases List.mem_cons.mp hl with rfl | hl
          · exact absurd hlong hshort
          · exact ⟨l, hl, hlong⟩
        split
        · exact ih hlater _
        · intro x hx
          rw [List.mem_singleton.mp hx]
        · exact List.forall_mem_cons.mpr ⟨rfl, ih hlater _⟩

section

variable {env : ServerEnv σ F} {ending : Ending} {s : σ} {chunks : List Chunk}

theorem handleClient_terminated : (handleClient env ending s chunks).2.filter (·.terminated) =
    dispatched env s (linesOf (unread chunks)) := by
  rw [handleClient_eq, serveLines_terminated]

theorem OneReplyEach.attended (h : OneReplyEach env ending s chunks) :
    Attended env s (linesOf (unread chunks)) := by
  refine (attended_iff env notMem_of_mem_linesOf s).mp ⟨?_, fun x hx => ?_⟩
  · rw [← h.inOrder, handleClient_terminated]
  · rw [← @handleClient_terminated σ F env ending s chunks] at hx
    obtain ⟨hmem, hterm⟩ := List.mem_filter.mp hx
    exact h.answered x hmem hterm

theorem Attended.oneReplyEach (h : Attended env s (linesOf (unread chunks))) :
    OneReplyEach env ending s chunks := by
  obtain ⟨hlines, hanswers⟩ := (attended_iff env notMem_of_mem_linesOf s).mpr h
  refine ⟨fun chunks' hsame => ?_, ?_, fun x hx hterm => ?_, fun hlong => ?_⟩
  · rw [handleClient_eq, handleClient_eq, hsame]
  · rw [handleClient_terminated]
    exact hlines
  · refine hanswers x ?_
    rw [← @handleClient_terminated σ F env ending s chunks]
    exact List.mem_filter.mpr ⟨hx, hterm⟩
  · rw [handleClient_eq]
    exact serveLines_stops env ending _ hlong s

end

/-- **One answer for each request**, in order and however the bytes arrive, exactly when up
to the first line that is too long every line is text, no handler panics, and the name of an
unknown V1 command fits into the answer. -/
theorem one_reply_each_iff (env : ServerEnv σ F) (ending : Ending) (s : σ)
    (chunks : List Chunk) :
    OneReplyEach env ending s chunks ↔ Attended env s (linesOf (unread chunks)) :=
  ⟨OneReplyEach.attended, Attended.oneReplyEach⟩

/-- Handlers that answer every request with success. -/
def willing : ServerEnv Unit Int where
  floats    := { parse := fun _ => none, isFinite := fun _ => true, ofInt := id }
  parse     := fun _ => none
  floatText := { text := fun n => (toString n).toList, number := isNumber_int }
  help      := ""
  v2Text    := fun _ _ => ((), some { id := .null, ok := true })
  v2Request := fun _ _ => ((), some { id := .null, ok := true })

def oneRead (bytes : List UInt8) (h : bytes ≠ []) : List Chunk := [⟨bytes, h⟩]

/-- A line with the byte FF is skipped; the name of the unknown command closes the text that
it is put into. -/
theorem replies_missing :
    ¬ OneReplyEach willing .eof () (oneRead [0xFF, 10] (by decide)) ∧
      ¬ OneReplyEach willing .eof () (oneRead [0x78, 0x22, 0x79, 10] (by decide)) := by
  have hcan : ∀ {bytes : List UInt8} (h : bytes ≠ []) {l : List UInt8},
      OneReplyEach willing .eof () (oneRead bytes h) → linesOf bytes = [l] →
      l.length ≤ maxRequestLen → Answerable willing () l := by
    intro bytes h l hone hlines hshort
    have hatt := hone.attended
    have hunread : unread (oneRead bytes h) = bytes := List.append_nil bytes
    rw [hunread, hlines] at hatt
    rcases hatt with hlong | ⟨hcan, _⟩
    · exact absurd hlong (Nat.not_lt.mpr hshort)
    · exact hcan
  constructor
  · intro hone
    obtain ⟨text, htext, _⟩ := @hcan [0xFF, 10] (by decide) [0xFF] hone (by decide) (by decide)
    have hnone : fromUtf8 [0xFF] = none := by decide
    rw [hnone] at htext
    cases htext
  · intro hone
    obtain ⟨text, htext, hanswer⟩ :=
      @hcan [0x78, 0x22, 0x79, 10] (by decide) [0x78, 0x22, 0x79] hone (by decide) (by decide)
    have hsome : fromUtf8 [0x78, 0x22, 0x79] = some "x\"y" := by rfl
    rw [hsome] at htext
    obtain rfl := Option.some.inj htext
    have htrim : Str.trim "x\"y" = "x\"y" := by decide
    rw [htrim] at hanswer
    rcases hanswer with hempty | hanswer
    · exact absurd hempty (by decide)
    · have hunknown : dispatch willing.toV1Env "x\"y".toList = .unknown "x\"y" := by rfl
      have hv1 : isV1 "x\"y" = true := by decide
      unfold Answers AnswersV1 at hanswer
      rw [hv1, hunknown] at hanswer
      exact absurd hanswer (by decide)

end Jmux.Socket
