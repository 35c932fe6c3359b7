/-
  Jmux.Ports.ProcTables — the tables that the port scanner reads
  (`parse_tcp_line`, `read_listening_inodes` and the links of `/proc/*/fd` in
  `port_scanner.rs`), and how the kernel writes them.

  Main results:
    * `parseTcpLine_line`     — the line of a socket is read as its inode and port
                                 exactly if the socket listens.
    * `readTable_text`          — the listening sockets of a table.
    * `socketInode_text`      — the link of a descriptor.
-/
import Jmux.Lib.Numeral

namespace Jmux.Ports

open Jmux.Lib

/-! ## §1. What the scanner reads. -/

/-- The inode and the port of a listening socket. -/
def parseTcpLine (line : List Char) : Option (Nat × Nat) :=
  let fields := Str.splitWhitespace line
  if fields.length < 10 then none
  else if fields[3]? ≠ some "0A".toList then none
  else do
    let localAddr ← fields[1]?
    let port ← parseU16Hex (Str.afterLast [':'] localAddr)
    if port = 0 then none
    else
      let text ← fields[9]?
      let inode ← Str.parseUsize text
      if inode = 0 then none else some (inode, port)

/-- `/proc`, as far as the scanner reads it; `none` where a file cannot be read. -/
structure ProcFs where
  /-- `/proc/net/tcp` -/
  tcp     : Option String
  /-- `/proc/net/tcp6` -/
  tcp6    : Option String
  /-- The names in `/proc`. -/
  names   : Option (List String)
  /-- `/proc/{pid}/cwd` -/
  cwdLink : Nat → Option String
  /-- `/proc/{pid}/fd/*` -/
  fdLinks : Nat → Option (List (Option String))

/-- The listening sockets of one table, without its headings. -/
def readTable : Option String → List (Nat × Nat)
  | some contents => ((Str.lines contents).drop 1).filterMap parseTcpLine
  | none => []

def readListeningInodes (fs : ProcFs) : List (Nat × Nat) := [fs.tcp, fs.tcp6].flatMap readTable

/-- The inode of a link `socket:[12345]`. -/
def socketInode (link : String) : Option Nat :=
  ((Str.stripPrefix "socket:[".toList link.toList).bind (Str.stripSuffix [']'])).bind Str.parseUsize

/-! ## §2. What the kernel writes. -/

/-- A field of a line. -/
structure Word where
  chars    : List Char
  nonempty : chars ≠ []
  noBlank  : ∀ c ∈ chars, Str.isWhitespace c = false

/-- The state of a listening socket. -/
def tcpListen : Nat := 0x0A

/-- A socket of the table, and how its line is laid out.  One that listens has a port and
an inode. -/
structure SocketRow where
  slot    : Word
  address : Word
  port    : Nat
  remote  : Word
  state   : Nat
  queues  : Word
  timer   : Word
  retries : Word
  uid     : Word
  timeout : Word
  inode   : Nat
  more    : List Word
  /-- The blanks before the first field, between two fields and behind the last one. -/
  lead    : Nat
  gap     : Nat → Nat
  trail   : Nat
  port_lt  : port < 2 ^ 16
  state_lt : state < 2 ^ 8
  inode_lt : inode < 2 ^ 64
  listens  : state = tcpListen → port ≠ 0 ∧ inode ≠ 0

/-- Fields with one or more blanks between them. -/
def spread (gap : Nat → Nat) : List (List Char) → List Char
  | [] => []
  | [field] => field
  | field :: fields =>
      field ++ List.replicate (gap fields.length + 1) ' ' ++ spread gap fields

namespace SocketRow

/-- `%08X:%04X`, `%02X` and the decimal inode among the other fields. -/
def fields (row : SocketRow) : List (List Char) :=
  [row.slot.chars, row.address.chars ++ ':' :: hexDigits 4 row.port, row.remote.chars,
    hexDigits 2 row.state, row.queues.chars, row.timer.chars, row.retries.chars, row.uid.chars,
    row.timeout.chars, (toString row.inode).toList] ++ row.more.map (·.chars)

def line (row : SocketRow) : List Char :=
  List.replicate row.lead ' ' ++ spread row.gap row.fields ++ List.replicate row.trail ' '

end SocketRow

/-- A line of its own: blanks and nothing else that is white space. -/
def OneLine (cs : List Char) : Prop := ∀ c ∈ cs, c = ' ' ∨ Str.isWhitespace c = false

/-- One of the two tables. -/
structure SocketTable where
  header  : List Char
  rows    : List SocketRow
  oneLine : OneLine header

/-- The table as text: the headings, and a line for each socket. -/
def SocketTable.text (table : SocketTable) : String :=
  String.ofList ((table.header :: table.rows.map SocketRow.line).flatMap (· ++ ['\n']))

/-- What a descriptor is open on. -/
inductive FdTarget
  | socket (inode : Nat) (h : inode < 2 ^ 64)
  /-- A file, a pipe and so on. -/
  | other (text : String) (h : ¬ "socket:[".toList <+: text.toList)

def FdTarget.text : FdTarget → String
  | socket inode _ => "socket:[" ++ toString inode ++ "]"
  | other text _ => text

/-! ## §3. Reading it back. -/

theorem hexDigits_noBlank {width n : Nat} {c : Char} (h : c ∈ hexDigits width n) :
    Str.isWhitespace c = false ∧ c ≠ ':' := by
  obtain ⟨d, hd, rfl⟩ := mem_hexDigits h
  have hall : ∀ n : Fin 16, Str.isWhitespace (upperDigit n) = false ∧ upperDigit n ≠ ':' := by decide
  exact hall ⟨d, hd⟩

theorem isDigit_noBlank {c : Char} (h : c.isDigit = true) : Str.isWhitespace c = false := by
  have hrange : 48 ≤ c.toNat ∧ c.toNat ≤ 57 := by
    simp only [Char.isDigit, Bool.and_eq_true, decide_eq_true_eq] at h
    exact ⟨UInt32.le_iff_toNat_le.mp h.1, UInt32.le_iff_toNat_le.mp h.2⟩
  unfold Str.isWhitespace
  simp only [Bool.or_eq_false_iff, Bool.and_eq_false_iff, decide_eq_false_iff_not, beq_eq_false_iff_ne]
  omega

/-- What is split off as one word. -/
def IsWord (field : List Char) : Prop := field ≠ [] ∧ ∀ c ∈ field, Str.isWhitespace c = false

theorem Word.isWord (w : Word) : IsWord w.chars := ⟨w.nonempty, w.noBlank⟩

theorem isWord_hexDigits {width n : Nat} (h : 0 < width) : IsWord (hexDigits width n) := by
  refine ⟨List.ne_nil_of_length_pos ?_, fun c hc => (hexDigits_noBlank hc).1⟩
  rw [length_hexDigits]
  exact h

theorem isWord_address (w : Word) (port : Nat) :
    IsWord (w.chars ++ ':' :: hexDigits 4 port) := by
  refine ⟨by simp, fun c hc => ?_⟩
  rcases List.mem_append.mp hc with hc | hc
  · exact w.noBlank c hc
  · rcases List.mem_cons.mp hc with rfl | hc
    · decide
    · exact (hexDigits_noBlank hc).1

theorem SocketRow.isWord_fields (row : SocketRow) : ∀ field ∈ row.fields, IsWord field := by
  intro field hfield
  rcases List.mem_append.mp hfield with hfield | hfield
  · simp only [List.mem_cons, List.not_mem_nil, or_false] at hfield
    rcases hfield with rfl | rfl | rfl | rfl | rfl | rfl | rfl | rfl | rfl | rfl
    · exact row.slot.isWord
    · exact isWord_address row.address row.port
    · exact row.remote.isWord
    · exact isWord_hexDigits (by decide)
    · exact row.queues.isWord
    · exact row.timer.isWord
    · exact row.retries.isWord
    · exact row.uid.isWord
    · exact row.timeout.isWord
    · exact ⟨toString_ne_nil row.inode, fun c hc => isDigit_noBlank (isDigit_of_mem_toString hc)⟩
  · obtain ⟨w, -, rfl⟩ := List.mem_map.mp hfield
    exact w.isWord

/-! ### Words. -/

theorem splitWhitespace_blanks (n : Nat) (cs : List Char) :
    Str.splitWhitespace (List.replicate n ' ' ++ cs) = Str.splitWhitespace cs := by
  induction n with
  | zero => rfl
  | succ n ih =>
      have hcons : List.replicate (n + 1) ' ' ++ cs = [] ++ ' ' :: (List.replicate n ' ' ++ cs) := rfl
      rw [hcons, Str.splitWhitespace_append (by decide), ih]
      rfl

theorem splitWhitespace_append_blanks (cs : List Char) (n : Nat) :
    Str.splitWhitespace (cs ++ List.replicate n ' ') = Str.splitWhitespace cs := by
  cases n with
  | zero => rw [List.replicate_zero, List.append_nil]
  | succ n =>
      rw [List.replicate_succ, Str.splitWhitespace_append (by decide)]
      have hblanks := splitWhitespace_blanks n []
      rw [List.append_nil] at hblanks
      rw [hblanks]
      exact List.append_nil _

/-- Fields with blanks between them are the fields again. -/
theorem splitWhitespace_spread (gap : Nat → Nat) {fields : List (List Char)}
    (h : ∀ field ∈ fields, IsWord field) : Str.splitWhitespace (spread gap fields) = fields := by
  induction fields with
  | nil => rfl
  | cons field fields ih =>
      have hword := h field List.mem_cons_self
      have hfield := Str.splitWhitespace_word hword.1 hword.2
      have hrest := ih fun f hf => h f (List.mem_cons_of_mem field hf)
      cases fields with
      | nil => exact hfield
      | cons next fields =>
          rw [spread, List.append_assoc, List.replicate_succ, List.cons_append,
            Str.splitWhitespace_append (by decide), hfield, splitWhitespace_blanks, hrest]
          · rfl
          · exact List.cons_ne_nil _ _

theorem SocketRow.splitWhitespace_line (row : SocketRow) :
    Str.splitWhitespace row.line = row.fields := by
  rw [SocketRow.line, splitWhitespace_append_blanks, splitWhitespace_blanks,
    splitWhitespace_spread row.gap row.isWord_fields]

/-! ### Lines. -/

theorem hexDigits_state {n : Nat} (h : n < 2 ^ 8) : hexDigits 2 n = "0A".toList ↔ n = tcpListen := by
  constructor
  · intro heq
    have hvalue : hexValue 0 (hexDigits 2 n) = some tcpListen := by
      rw [heq]
      decide
    rw [hexValue_hexDigits, Nat.mod_eq_of_lt (by omega)] at hvalue
    exact Option.some.inj hvalue
  · rintro rfl
    decide

theorem afterLast_address (address : List Char) (port : Nat) :
    Str.afterLast [':'] (address ++ ':' :: hexDigits 4 port) = hexDigits 4 port := by
  have hno : ¬ [':'] <:+: [] ++ hexDigits 4 port := by
    intro h
    have hmem : ':' ∈ hexDigits 4 port := h.subset List.mem_cons_self
    exact (hexDigits_noBlank hmem).2 rfl
  have hlast : Str.afterLast [':'] (address ++ [':'] ++ hexDigits 4 port) = hexDigits 4 port :=
    Str.afterLast_append hno
  rwa [List.append_assoc] at hlast

/-- **The line of a socket** counts exactly if the socket listens. -/
theorem parseTcpLine_line (row : SocketRow) :
    parseTcpLine row.line =
      if row.state = tcpListen then some (row.inode, row.port) else none := by
  have hlen : ¬ row.fields.length < 10 := by simp [SocketRow.fields]
  unfold parseTcpLine
  rw [row.splitWhitespace_line]
  dsimp only
  rw [if_neg hlen]
  have hstate : row.fields[3]? = some (hexDigits 2 row.state) := rfl
  have haddress : row.fields[1]? = some (row.address.chars ++ ':' :: hexDigits 4 row.port) := rfl
  have hinode : row.fields[9]? = some (toString row.inode).toList := rfl
  rw [hstate, haddress, hinode]
  by_cases hlisten : row.state = tcpListen
  · obtain ⟨hport, hne⟩ := row.listens hlisten
    rw [if_neg (by rw [(hexDigits_state row.state_lt).mpr hlisten]; simp), if_pos hlisten]
    have hparse := parseUsize_toString row.inode_lt
    generalize (toString row.inode).toList = text at hparse
    simp [afterLast_address, parseU16Hex_hexDigits row.port_lt, hport, hparse, hne]
  · rw [if_pos (fun h => hlisten ((hexDigits_state row.state_lt).mp (Option.some.inj h))),
      if_neg hlisten]

theorem OneLine.append {as bs : List Char} (ha : OneLine as) (hb : OneLine bs) :
    OneLine (as ++ bs) := List.forall_mem_append.mpr ⟨ha, hb⟩

theorem oneLine_blanks (n : Nat) : OneLine (List.replicate n ' ') :=
  fun _ hc => .inl (List.eq_of_mem_replicate hc)

theorem oneLine_spread (gap : Nat → Nat) {fields : List (List Char)}
    (h : ∀ field ∈ fields, IsWord field) : OneLine (spread gap fields) := by
  induction fields with
  | nil => exact fun c hc => absurd hc List.not_mem_nil
  | cons field fields ih =>
      have hfield : OneLine field := fun c hc => .inr ((h field List.mem_cons_self).2 c hc)
      have hrest := ih fun f hf => h f (List.mem_cons_of_mem field hf)
      cases fields with
      | nil => exact hfield
      | cons next fields => exact (hfield.append (oneLine_blanks _)).append hrest

theorem SocketRow.oneLine_line (row : SocketRow) : OneLine row.line :=
  ((oneLine_blanks _).append (oneLine_spread row.gap row.isWord_fields)).append (oneLine_blanks _)

theorem OneLine.noBreak {cs : List Char} (h : OneLine cs) {c : Char} (hc : c = '\n' ∨ c = '\r') :
    c ∉ cs := by
  intro hmem
  rcases hc with rfl | rfl
  · rcases h _ hmem with h | h
    · cases h
    · cases h
  · rcases h _ hmem with h | h
    · cases h
    · cases h

/-- The listening sockets of a table. -/
theorem readTable_text (table : SocketTable) :
    readTable (some table.text) =
      (table.rows.filter (·.state = tcpListen)).map fun row => (row.inode, row.port) := by
  have honeLine : ∀ l ∈ table.header :: table.rows.map SocketRow.line, OneLine l := by
    intro l hl
    rcases List.mem_cons.mp hl with rfl | hl
    · exact table.oneLine
    · obtain ⟨row, -, rfl⟩ := List.mem_map.mp hl
      exact row.oneLine_line
  have hlines : Str.lines table.text = table.header :: table.rows.map SocketRow.line := by
    refine Str.lines_flatMap (fun l hl => (honeLine l hl).noBreak (.inl rfl)) fun l hl hlast => ?_
    exact (honeLine l hl).noBreak (.inr rfl) (List.mem_of_getLast? hlast)
  rw [readTable, hlines, List.drop_one, List.tail_cons, List.filterMap_map, ← List.filterMap_eq_map,
    List.filterMap_filter]
  refine List.filterMap_congr fun row _ => ?_
  rw [Function.comp_apply, parseTcpLine_line]
  by_cases h : row.state = tcpListen <;> simp [h]

/-- **The link of a descriptor.** -/
theorem socketInode_text (target : FdTarget) :
    socketInode target.text = match target with
      | .socket inode _ => some inode
      | .other _ _ => none := by
  cases target with
  | other text h =>
      have hno : "socket:[".toList.isPrefixOf text.toList = false := by
        rw [← Bool.not_eq_true, List.isPrefixOf_iff_prefix]
        exact h
      show ((Str.stripPrefix _ text.toList).bind _).bind _ = none
      rw [Str.stripPrefix, hno]
      rfl
  | socket inode h =>
      have hchars : (FdTarget.socket inode h).text.toList
          = "socket:[".toList ++ ((toString inode).toList ++ [']']) := by
        simp [FdTarget.text]
      have hpre : Str.stripPrefix "socket:[".toList (FdTarget.socket inode h).text.toList
          = some ((toString inode).toList ++ [']']) := by
        rw [hchars, Str.stripPrefix, if_pos (List.isPrefixOf_iff_prefix.mpr (List.prefix_append _ _)),
          List.drop_left]
      have hsuf : Str.stripSuffix [']'] ((toString inode).toList ++ [']'])
          = some (toString inode).toList := by
        rw [Str.stripSuffix, if_pos (List.isSuffixOf_iff_suffix.mpr (List.suffix_append _ _))]
        simp
      rw [socketInode, hpre, Option.bind_some, hsuf, Option.bind_some, parseUsize_toString h]

end Jmux.Ports
