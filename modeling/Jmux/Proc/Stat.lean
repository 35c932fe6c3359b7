/-
  Jmux.Proc.Stat — `/proc/<pid>/stat`, as the kernel writes it and as the program reads it
  (`app.rs`, `hibernate.rs`, `session/claude_resume.rs`, `socket/v2/system.rs`,
  `ui/task_manager.rs`).

  The name of the program stands in parentheses and may hold blanks and parentheses
  itself, so every reader starts behind the last `)`.

  Main results:
    * `statField_line`      — for any name, the fields are read as they were written.
    * `readers_line`        — what each reader finds in a line.
    * `pts_of_line`         — which terminals the readers recognise.
-/
import Jmux.Ports.ProcTables
import Mathlib.Data.Nat.Bitwise
import Mathlib.Tactic.NormNum

namespace Jmux.Proc

open Jmux.Lib

/-! ## §1. The readers. -/

/-- What follows the last `)`. -/
def afterComm (stat : List Char) : Option (List Char) :=
  if ')' ∈ stat then some (Str.afterLast [')'] stat) else none

/-- `char::is_ascii_whitespace` -/
def isAsciiWhitespace (c : Char) : Bool :=
  c == ' ' || c == '\t' || c == '\n' || c == '\x0C' || c == '\r'

/-- `str::split_ascii_whitespace` -/
def splitAsciiWhitespace (cs : List Char) : List (List Char) :=
  (cs.splitOnP isAsciiWhitespace).filter (· ≠ [])

/-- A field behind the name, as the readers that trim first and split at ASCII blanks
find it. -/
def statField (stat : List Char) (idx : Nat) : Option (List Char) := do
  let rest ← afterComm stat
  (splitAsciiWhitespace (Str.trimMatches Str.isWhitespace rest))[idx]?

/-- `as u64` -/
def asU64 (n : Int) : Nat := (n % 2 ^ 64).toNat

/-- `stat_field_after_comm` (`app.rs`) -/
def statFieldAfterComm (stat : List Char) (idx : Nat) : Option Int :=
  (statField stat idx).bind Str.parseI64

/-- `parse_ppid` (`app.rs`) -/
def parsePpid (stat : List Char) : Option Nat :=
  (statFieldAfterComm stat 1).map fun v => (v % 2 ^ 32).toNat

/-- `parse_ppid_stat` (`claude_resume.rs`) -/
def parsePpidStat (stat : List Char) : Option Nat := do
  let rest ← afterComm stat
  let field ← (Str.splitWhitespace rest)[1]?
  Str.parseU32 field

/-- `parse_tty_nr` (`system.rs`), `super_parse_tty_nr` (`task_manager.rs`) -/
def parseTtyNr (stat : List Char) : Option Nat :=
  ((statField stat 4).bind Str.parseI64).map asU64

/-- `parse_cpu_ticks` (`system.rs`), `super_parse_cpu_ticks` (`task_manager.rs`) -/
def parseCpuTicks (stat : List Char) : Option Nat := do
  let utime ← (statField stat 11).bind Str.parseUsize
  let stime ← (statField stat 12).bind Str.parseUsize
  some ((utime + stime) % 2 ^ 64)

/-- A number that is skipped to. -/
def parseAt (idx : Nat) (stat : List Char) : Option Nat := (statField stat idx).bind Str.parseUsize

/-- `parse_rss_pages` (`system.rs`) -/
def parseRssPages : List Char → Option Nat := parseAt 23

/-- `super_parse_rss_pages` (`task_manager.rs`) -/
def superParseRssPages : List Char → Option Nat := parseAt 21

/-- `tty_nr_to_pts_index`, `tty_nr_to_pts` -/
def ttyNrToPtsIndex (ttyNr : Nat) : Option Nat :=
  if ttyNr = 0 then none
  else if (ttyNr >>> 8) &&& 0xFF ≠ 136 then none
  else some (((ttyNr &&& 0xFF) ||| ((ttyNr >>> 12) &&& 0xFFF00)) % 2 ^ 32)

/-- The terminal and the foreground group, as `foreground_pgrp` reads them. -/
def ttyFields (stat : List Char) : Option (Nat × Option Int) := do
  let rest ← afterComm stat
  -- `tty_nr` is read as a number without a sign
  let fields := (Str.splitWhitespace rest).take 6
  let ttyNr ← fields[4]?.bind Str.parseUsize
  some (ttyNr, (fields[5]?.bind Str.parseI64).filter fun n => -2 ^ 31 ≤ n ∧ n < 2 ^ 31)

/-! ## §2. The kernel's line. -/

/-- A process. -/
structure ProcStat where
  pid     : Nat
  /-- Any text; the kernel does not escape it. -/
  comm    : List Char
  state   : Char
  ppid    : Nat
  pgrp    : Int
  session : Int
  ttyNr   : Int
  tpgid   : Int
  /-- From `flags` on. -/
  more    : List Int
  state_word : Str.isWhitespace state = false ∧ state ≠ ')'

namespace ProcStat

def shown (n : Int) : List Char := (toString n).toList

def fields (p : ProcStat) : List (List Char) :=
  [p.state] :: (([(p.ppid : Int), p.pgrp, p.session, p.ttyNr, p.tpgid] ++ p.more).map shown)

/-- The line, with one blank between two fields. -/
def line (p : ProcStat) : List Char :=
  (toString p.pid).toList ++ " (".toList ++ p.comm ++ ')' ::
    (' ' :: Ports.spread (fun _ => 0) p.fields ++ ['\n'])

end ProcStat

/-! ## §3. Finding the fields. -/

theorem isWhitespace_of_ascii {c : Char} (h : isAsciiWhitespace c = true) :
    Str.isWhitespace c = true := by
  simp only [isAsciiWhitespace, Bool.or_eq_true, beq_iff_eq] at h
  rcases h with (((rfl | rfl) | rfl) | rfl) | rfl <;> decide

/-- Where every blank is an ASCII one, the two ways to split agree. -/
theorem splitAsciiWhitespace_eq {cs : List Char}
    (h : ∀ c ∈ cs, Str.isWhitespace c = true → isAsciiWhitespace c = true) :
    splitAsciiWhitespace cs = Str.splitWhitespace cs := by
  have hsplit : cs.splitOnP isAsciiWhitespace = cs.splitOnP Str.isWhitespace := by
    induction cs with
    | nil => rfl
    | cons c cs ih =>
        have hc : isAsciiWhitespace c = Str.isWhitespace c := by
          cases hw : Str.isWhitespace c with
          | true => exact h c List.mem_cons_self hw
          | false =>
              cases ha : isAsciiWhitespace c with
              | false => rfl
              | true =>
                  rw [isWhitespace_of_ascii ha] at hw
                  cases hw
        rw [List.splitOnP_cons_eq_if_modifyHead, List.splitOnP_cons_eq_if_modifyHead, hc,
          ih fun d hd => h d (List.mem_cons_of_mem c hd)]
  unfold splitAsciiWhitespace Str.splitWhitespace
  rw [hsplit]

namespace ProcStat

/-- A character of a number. -/
theorem shown_chars (n : Int) : ∀ c ∈ shown n, Str.isWhitespace c = false ∧ c ≠ ')' := by
  have hdigit : ∀ {m : Nat} {c : Char}, c ∈ (toString m).toList →
      Str.isWhitespace c = false ∧ c ≠ ')' := by
    intro m c hc
    have h := isDigit_of_mem_toString hc
    refine ⟨Ports.isDigit_noBlank h, ?_⟩
    rintro rfl
    cases h
  intro c hc
  obtain ⟨m, rfl | rfl⟩ := n.eq_nat_or_neg
  · exact hdigit hc
  · cases m with
    | zero => exact hdigit (m := 0) hc
    | succ m =>
        rw [shown, toList_toString_neg] at hc
        rcases List.mem_cons.mp hc with rfl | hc
        · decide
        · exact hdigit hc

theorem shown_ne_nil (n : Int) : shown n ≠ [] := by
  obtain ⟨m, rfl | rfl⟩ := n.eq_nat_or_neg
  · exact toString_ne_nil m
  · cases m with
    | zero => decide
    | succ m =>
        rw [shown, toList_toString_neg]
        exact List.cons_ne_nil _ _

theorem field_chars (p : ProcStat) : ∀ field ∈ p.fields,
    Ports.IsWord field ∧ ')' ∉ field := by
  intro field hfield
  rcases List.mem_cons.mp hfield with rfl | hfield
  · refine ⟨⟨by simp, fun c hc => ?_⟩, fun hc => ?_⟩
    · rw [List.mem_singleton.mp hc]
      exact p.state_word.1
    · exact p.state_word.2 (List.mem_singleton.mp hc).symm
  · obtain ⟨n, -, rfl⟩ := List.mem_map.mp hfield
    exact ⟨⟨shown_ne_nil n, fun c hc => (shown_chars n c hc).1⟩,
      fun hc => (shown_chars n _ hc).2 rfl⟩

/-- What is not a blank of the line is a character of a field. -/
theorem mem_spread {gap : Nat → Nat} {fields : List (List Char)} {c : Char}
    (h : c ∈ Ports.spread gap fields) : c = ' ' ∨ ∃ field ∈ fields, c ∈ field := by
  induction fields with
  | nil => cases h
  | cons field fields ih =>
      cases fields with
      | nil => exact .inr ⟨field, List.mem_cons_self, h⟩
      | cons next rest =>
          simp only [Ports.spread, List.mem_append] at h
          rcases h with (h | h) | h
          · exact .inr ⟨field, List.mem_cons_self, h⟩
          · exact .inl (List.eq_of_mem_replicate h)
          · rcases ih h with h | ⟨f, hf, hc⟩
            · exact .inl h
            · exact .inr ⟨f, List.mem_cons_of_mem field hf, hc⟩

/-- The text behind the name. -/
def rest (p : ProcStat) : List Char := ' ' :: Ports.spread (fun _ => 0) p.fields ++ ['\n']

theorem rest_chars (p : ProcStat) : ∀ c ∈ p.rest,
    c = ' ' ∨ c = '\n' ∨ (Str.isWhitespace c = false ∧ c ≠ ')') := by
  intro c hc
  rcases List.mem_append.mp hc with hc | hc
  · rcases List.mem_cons.mp hc with rfl | hc
    · exact .inl rfl
    · rcases mem_spread hc with rfl | ⟨field, hfield, hc⟩
      · exact .inl rfl
      · obtain ⟨hword, hparen⟩ := p.field_chars field hfield
        exact .inr (.inr ⟨hword.2 c hc, fun h => hparen (h ▸ hc)⟩)
  · exact .inr (.inl (List.mem_singleton.mp hc))

/-- The last `)` is the one behind the name, whatever the name holds. -/
theorem afterComm_line (p : ProcStat) : afterComm p.line = some p.rest := by
  have hline : p.line =
      ((toString p.pid).toList ++ " (".toList ++ p.comm) ++ [')'] ++ p.rest := by
    simp [line, rest]
  -- behind the name there are blanks, digits, signs and one letter
  have hnot : ¬ [')'] <:+: [] ++ p.rest := by
    intro h
    have hmem : ')' ∈ p.rest := h.subset List.mem_cons_self
    rcases p.rest_chars _ hmem with h | h | ⟨-, h⟩
    · cases h
    · cases h
    · exact h rfl
  have hmem : ')' ∈ p.line := by
    rw [hline]
    simp
  unfold afterComm
  rw [if_pos hmem, hline, Str.afterLast_append hnot]

theorem splitWhitespace_rest (p : ProcStat) : Str.splitWhitespace p.rest = p.fields := by
  have hstart : Str.splitWhitespace p.rest =
      Str.splitWhitespace (Ports.spread (fun _ => 0) p.fields ++ ['\n']) :=
    Str.splitWhitespace_append (by decide : Str.isWhitespace ' ' = true) [] _
  have hend : Str.splitWhitespace (Ports.spread (fun _ => 0) p.fields ++ ['\n']) =
      Str.splitWhitespace (Ports.spread (fun _ => 0) p.fields) ++ Str.splitWhitespace [] :=
    Str.splitWhitespace_append (by decide : Str.isWhitespace '\n' = true) _ []
  rw [hstart, hend, Ports.splitWhitespace_spread _ fun field h => (p.field_chars field h).1]
  exact List.append_nil _

end ProcStat

/-- **`statField_line`**: for any name of the program, also one with blanks and
parentheses, the fields are the ones written. -/
theorem statField_line (p : ProcStat) (idx : Nat) : statField p.line idx = p.fields[idx]? := by
  -- the line has no white space but blanks and the newline
  have hascii : ∀ c ∈ Str.trimMatches Str.isWhitespace p.rest,
      Str.isWhitespace c = true → isAsciiWhitespace c = true := by
    intro c hc hw
    rcases p.rest_chars c (Str.mem_of_mem_trimMatches hc) with rfl | rfl | ⟨h, -⟩
    · rfl
    · rfl
    · rw [h] at hw
      cases hw
  unfold statField
  rw [p.afterComm_line]
  show (splitAsciiWhitespace _)[idx]? = _
  rw [splitAsciiWhitespace_eq hascii, Str.splitWhitespace_trimMatches, p.splitWhitespace_rest]

/-! ## §4. What each reader finds. -/

/-- A number of 64 bits without a sign. -/
def asNat (n : Int) : Option Nat := if 0 ≤ n ∧ n < 2 ^ 64 then some n.toNat else none

theorem parseUsize_shown (n : Int) : Str.parseUsize (ProcStat.shown n) = asNat n := by
  obtain ⟨m, rfl | rfl⟩ := n.eq_nat_or_neg
  · rw [ProcStat.shown, toList_toString_natCast]
    unfold Str.parseUsize asNat
    rw [stripPrefix_plus_toString, Option.getD_none, if_neg (toString_ne_nil m), digits_toString]
    by_cases h : m < 2 ^ 64
    · rw [if_pos (by omega)]
      simpa [Option.filter] using h
    · rw [if_neg (by omega)]
      simpa [Option.filter] using h
  · cases m with
    | zero => rfl
    | succ m =>
        rw [ProcStat.shown, toList_toString_neg, parseUsize_neg, asNat, if_neg (by omega)]

namespace ProcStat

/-- A number behind the foreground group, as a reader of unsigned numbers takes it. -/
def natField (p : ProcStat) (k : Nat) : Option Nat := p.more[k]?.bind asNat

theorem parseAt_line (p : ProcStat) (k : Nat) : parseAt (k + 6) p.line = p.natField k := by
  have hfield : p.fields[k + 6]? = p.more[k]?.map shown := by
    simp [fields, List.getElem?_cons_succ]
  unfold parseAt natField
  rw [statField_line, hfield]
  cases p.more[k]? with
  | none => rfl
  | some n => exact parseUsize_shown n

end ProcStat

/-- The two readers of the parent. -/
theorem ppid_line (p : ProcStat) (hppid : p.ppid < 2 ^ 32) :
    parsePpid p.line = some p.ppid ∧ parsePpidStat p.line = some p.ppid := by
  constructor
  · have hfield : statField p.line 1 = some (ProcStat.shown p.ppid) := by
      rw [statField_line]
      rfl
    rw [parsePpid, statFieldAfterComm, hfield, Option.bind_some, ProcStat.shown,
      parseI64_toString (by omega) (by omega), Option.map_some]
    congr 1
    omega
  · show (afterComm p.line).bind _ = _
    rw [p.afterComm_line, Option.bind_some, p.splitWhitespace_rest]
    exact parseU32_toString hppid

/-- **`readers_line`**: for any name, the two readers of the parent and the readers of the
terminal and its foreground group find what the kernel wrote, and the reader of the CPU
time the sum of `utime` and `stime`.  The task manager reads the resident memory, the socket
the address of the code. -/
theorem readers_line (p : ProcStat) (hppid : p.ppid < 2 ^ 32)
    (htty : -2 ^ 31 ≤ p.ttyNr ∧ p.ttyNr < 2 ^ 31) (htpgid : -2 ^ 31 ≤ p.tpgid ∧ p.tpgid < 2 ^ 31) :
    parsePpid p.line = some p.ppid ∧ parsePpidStat p.line = some p.ppid ∧
    parseTtyNr p.line = some (asU64 p.ttyNr) ∧ statFieldAfterComm p.line 5 = some p.tpgid ∧
    parseCpuTicks p.line = ((p.natField 5).bind fun utime =>
      (p.natField 6).map fun stime => (utime + stime) % 2 ^ 64) ∧
    superParseRssPages p.line = p.natField 15 ∧ parseRssPages p.line = p.natField 17 := by
  obtain ⟨happ, hresume⟩ := ppid_line p hppid
  have htty' : statField p.line 4 = some (ProcStat.shown p.ttyNr) := by
    rw [statField_line]
    rfl
  have htpgid' : statField p.line 5 = some (ProcStat.shown p.tpgid) := by
    rw [statField_line]
    rfl
  refine ⟨happ, hresume, ?_, ?_, ?_, p.parseAt_line 15, p.parseAt_line 17⟩
  · rw [parseTtyNr, htty', Option.bind_some, ProcStat.shown,
      parseI64_toString (by omega) (by omega)]
    rfl
  · rw [statFieldAfterComm, htpgid', Option.bind_some, ProcStat.shown,
      parseI64_toString (by omega) (by omega)]
  · have hutime := p.parseAt_line 5
    have hstime := p.parseAt_line 6
    unfold parseAt at hutime hstime
    unfold parseCpuTicks
    rw [hutime, hstime]
    cases p.natField 5 with
    | none => rfl
    | some utime => cases p.natField 6 <;> rfl

/-- A server with a name that looks like the end of one and the fields behind it. -/
def sampleServer : ProcStat where
  pid     := 4242
  comm    := "tmux) S 1 (x".toList
  state   := 'R'
  ppid    := 4000
  pgrp    := 4242
  session := 4242
  ttyNr   := 34817
  tpgid   := 4242
  more    := [4194304, 1, 0, 0, 0, 250, 50, 0, 0, 20, 0, 1, 0, 77, 8192, 300, 0, 94208]
  state_word := by decide

theorem readers_line_sampleServer :
    parsePpid sampleServer.line = some 4000 ∧ parsePpidStat sampleServer.line = some 4000 ∧
    parseTtyNr sampleServer.line = some 34817 ∧ statFieldAfterComm sampleServer.line 5 = some 4242 ∧
    parseCpuTicks sampleServer.line = some 300 ∧
    superParseRssPages sampleServer.line = some 300 ∧
    parseRssPages sampleServer.line = some 94208 :=
  readers_line sampleServer (by decide) (by decide) (by decide)

/-- The terminal and the foreground group, where both are signed numbers of 32 bits. -/
theorem ttyFields_line (p : ProcStat) : ttyFields p.line = (asNat p.ttyNr).map fun ttyNr =>
    (ttyNr, (Str.parseI64 (ProcStat.shown p.tpgid)).filter
      fun n => -2 ^ 31 ≤ n ∧ n < 2 ^ 31) := by
  have htake : (Str.splitWhitespace p.rest).take 6 =
      [[p.state], ProcStat.shown p.ppid, ProcStat.shown p.pgrp, ProcStat.shown p.session,
        ProcStat.shown p.ttyNr, ProcStat.shown p.tpgid] := by
    rw [p.splitWhitespace_rest]
    rfl
  unfold ttyFields
  rw [p.afterComm_line, ← parseUsize_shown]
  simp only [Option.bind_eq_bind, Option.bind_some, htake, List.getElem?_cons_succ,
    List.getElem?_cons_zero]
  cases Str.parseUsize (ProcStat.shown p.ttyNr) <;> rfl

/-! ## §5. Terminals. -/

/-- `new_encode_dev`: eight bits of the minor number, twelve of the major one, and the
other twelve of the minor one. -/
def newEncodeDev (major minor : Nat) : Nat :=
  minor % 256 + major * 256 + minor / 256 * 2 ^ 20

/-- The kernel shows the device as a signed number of 32 bits. -/
def asI32 (n : Nat) : Int := if n < 2 ^ 31 then n else n - 2 ^ 32

theorem and_low (x : Nat) : x &&& 0xFF = x % 256 := Nat.and_two_pow_sub_one_eq_mod x 8

theorem and_high (x : Nat) : x &&& 0xFFF00 = x / 256 % 4096 * 256 := by
  have hmask : (0xFFF00 : Nat) = (2 ^ 12 - 1) <<< 8 := by decide
  have hshift : x / 256 % 4096 * 256 = (x >>> 8 % 2 ^ 12) <<< 8 := by
    rw [Nat.shiftRight_eq_div_pow, Nat.shiftLeft_eq]
    norm_num
  apply Nat.eq_of_testBit_eq
  intro i
  rw [hmask, hshift, Nat.testBit_and, Nat.testBit_shiftLeft, Nat.testBit_shiftLeft,
    Nat.testBit_two_pow_sub_one, Nat.testBit_mod_two_pow, Nat.testBit_shiftRight]
  by_cases hi : 8 ≤ i
  · simp only [hi, decide_true, Bool.true_and]
    rw [Nat.add_sub_cancel' hi, Bool.and_comm]
  · simp [hi]

theorem or_high {a : Nat} (b : Nat) (h : a < 256) : a ||| b * 256 = a + b * 256 := by
  have hsum := Nat.two_pow_add_eq_or_of_lt (i := 8) h b
  rw [Nat.or_comm, Nat.mul_comm b 256, ← hsum]
  omega

/-- Reading a device number, however many ones stand above its 32 bits. -/
theorem ttyNrToPtsIndex_encode {major minor : Nat} (k : Nat) (hmajor : major < 2 ^ 12)
    (hminor : minor < 2 ^ 20) :
    ttyNrToPtsIndex (newEncodeDev major minor + k * 2 ^ 32) =
      if major % 256 = 136 then some minor else none := by
  have hlow : (newEncodeDev major minor + k * 2 ^ 32) % 256 = minor % 256 := by
    unfold newEncodeDev
    omega
  have hmid : (newEncodeDev major minor + k * 2 ^ 32) / 256 % 256 = major % 256 := by
    unfold newEncodeDev
    omega
  have hhigh : (newEncodeDev major minor + k * 2 ^ 32) / 4096 / 256 % 4096 = minor / 256 := by
    have hsplit : newEncodeDev major minor + k * 2 ^ 32 =
        2 ^ 20 * (minor / 256 + k * 4096) + (minor % 256 + major * 256) := by
      unfold newEncodeDev
      omega
    have hsmall : minor % 256 + major * 256 < 2 ^ 20 := by omega
    have hdiv : (newEncodeDev major minor + k * 2 ^ 32) / (4096 * 256) =
        minor / 256 + k * 4096 := by
      rw [hsplit]
      exact (Nat.mul_add_div (by decide : 2 ^ 20 > 0) _ _).trans
        (by rw [Nat.div_eq_of_lt hsmall, Nat.add_zero])
    rw [Nat.div_div_eq_div_mul, hdiv]
    omega
  unfold ttyNrToPtsIndex
  by_cases h : major % 256 = 136
  · have hne : newEncodeDev major minor + k * 2 ^ 32 ≠ 0 := by
      unfold newEncodeDev
      omega
    rw [if_neg hne, if_pos h, and_low, Nat.shiftRight_eq_div_pow, hmid, if_neg (by simpa using h),
      and_low, hlow, and_high, Nat.shiftRight_eq_div_pow, hhigh, or_high _ (Nat.mod_lt _ (by decide))]
    congr 1
    omega
  · rw [if_neg h]
    split
    · rfl
    · rw [and_low, Nat.shiftRight_eq_div_pow, hmid, if_pos h]

/-- A device as the kernel writes it, and as the two readers take it. -/
theorem asU64_asI32 (n : Nat) (h : n < 2 ^ 32) :
    ∃ k, asU64 (asI32 n) = n + k * 2 ^ 32 ∧
      asNat (asI32 n) = if n < 2 ^ 31 then some n else none := by
  unfold asU64 asI32 asNat
  by_cases hsmall : n < 2 ^ 31
  · exact ⟨0, by rw [if_pos hsmall]; omega, by
      rw [if_pos hsmall, if_pos (by omega), Int.toNat_natCast, if_pos hsmall]⟩
  · exact ⟨2 ^ 32 - 1, by rw [if_neg hsmall]; omega, by
      rw [if_neg hsmall, if_neg (by omega), if_neg hsmall]⟩

/-- **`pts_of_line`**: the socket and the task manager recognise every pseudo-terminal of
a process; pausing an agent recognises the first `2 ^ 19` of them, since it does not read
the sign of the device number. -/
theorem pts_of_line (p : ProcStat) {major minor : Nat} (hmajor : major < 2 ^ 12)
    (hminor : minor < 2 ^ 20) (htty : p.ttyNr = asI32 (newEncodeDev major minor)) :
    ((parseTtyNr p.line).bind ttyNrToPtsIndex =
      if major % 256 = 136 then some minor else none) ∧
    ((ttyFields p.line).bind fun tty => ttyNrToPtsIndex tty.1) =
      if major % 256 = 136 ∧ minor < 2 ^ 19 then some minor else none := by
  have hlt : newEncodeDev major minor < 2 ^ 32 := by
    unfold newEncodeDev
    omega
  have hsign : newEncodeDev major minor < 2 ^ 31 ↔ minor < 2 ^ 19 := by
    unfold newEncodeDev
    omega
  obtain ⟨k, hk, hnat⟩ := asU64_asI32 _ hlt
  constructor
  · have hfield : statField p.line 4 = some (ProcStat.shown p.ttyNr) := by
      rw [statField_line]
      rfl
    have hrange : -2 ^ 63 ≤ p.ttyNr ∧ p.ttyNr < 2 ^ 63 := by
      rw [htty]
      unfold asI32
      split <;> omega
    rw [parseTtyNr, hfield, Option.bind_some, ProcStat.shown,
      parseI64_toString hrange.1 hrange.2, Option.map_some, Option.bind_some, htty, hk]
    exact ttyNrToPtsIndex_encode k hmajor hminor
  · rw [ttyFields_line, Option.bind_map, htty, hnat]
    by_cases hsmall : minor < 2 ^ 19
    · have hplain := ttyNrToPtsIndex_encode 0 hmajor hminor
      rw [Nat.zero_mul, Nat.add_zero] at hplain
      rw [if_pos (hsign.mpr hsmall), Option.bind_some, Function.comp_apply, hplain]
      simp only [and_iff_left hsmall]
    · rw [if_neg (mt hsign.mp hsmall), if_neg fun h => hsmall h.2]
      rfl

/-- The first pseudo-terminal whose number is negative. -/
def sampleHighPts : ProcStat :=
  { sampleServer with ttyNr := asI32 (newEncodeDev 136 524288), state_word := by decide }

theorem pts_of_line_sampleHighPts :
    (parseTtyNr sampleHighPts.line).bind ttyNrToPtsIndex = some 524288 ∧
    ((ttyFields sampleHighPts.line).bind fun tty => ttyNrToPtsIndex tty.1) = none :=
  @pts_of_line sampleHighPts 136 524288 (by decide) (by decide) rfl

end Jmux.Proc
