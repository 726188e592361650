import Mackerel.Bootloader.Commands
import Mackerel.Bootloader.Dump
import Mackerel.Bootloader.Readline

namespace Mackerel.Bootloader

open Bytes CString

/-- The line buffer with the memory that follows it, the memory that the commands reach, what has been
    sent to the console, and what is still to come from it. -/
structure Monitor where
  buffer : Block
  memory : Memory 32
  shown : List Byte
  input : List Byte

namespace Monitor

/-- `console_puts`, or `printf`. -/
def puts (s : Monitor) (text : List Byte) : Monitor := { s with shown := s.shown ++ wire text }

def NOT_FOUND : List Byte := chars ['C', 'o', 'm', 'm', 'a', 'n', 'd', ' ', 'n', 'o', 't', ' ', 'f', 'o', 'u', 'n', 'd',
  ':', ' ']

/-- The other handlers may do anything, and may stay away. -/
abbrev Handlers := Call → Monitor → Option Monitor

def perform (handlers : Handlers) (s : Monitor) : Call → Option Monitor
  | .peek addr => some (s.puts (hexText 2 (s.memory addr).toNat))
  | .poke addr val => some { s with memory := Function.update s.memory addr val }
  | .memdump addr bytes => some (s.puts (Bootloader.memdump s.memory addr bytes))
  | .notFound text => some (s.puts (NOT_FOUND ++ text))
  | call => handlers call s

/-- The text in the buffer, with a zero at the end of the line. -/
def lineOf (buffer : Block) (count : Nat) : List Byte := ((List.range count).map buffer).takeWhile (· ≠ 0)

variable (handlers : Handlers) (null : List Byte) (features : Features)

def prompt : List Byte := [0x3E, 0x20]

def newline : List Byte := [0x0D, 0x0A]

/-- One turn, if its line is complete. The zeros of `strtok` in the buffer are left out: the next line
    begins at its start again. -/
def turn (s : Monitor) : Option Monitor := do
  let s := s.puts prompt
  let (count, editor, input) ← readline s.buffer s.input
  let s := { s with buffer := editor.buffer, shown := s.shown ++ editor.shown, input := input }
  let s := s.puts newline
  let s ← perform handlers s (parse null features (lineOf s.buffer count.toNat))
  some (s.puts newline)

def turns : (count : Nat) → Monitor → Option Monitor
  | 0, s => some s
  | count + 1, s => do
      let s ← turn handlers null features s
      turns count s

end Monitor

def echoed (line : List Byte) (byte : Byte) : List Byte :=
  if isPrintable byte then [byte]
  else if erases byte ∧ line ≠ [] then Editor.cursorLeft ++ [0x20] ++ Editor.cursorLeft else []

/-- The line and the echo of what has been typed. -/
def echo (text : List Byte) : List Byte :=
  (text.foldl (fun s byte => (typed s.1 byte, s.2 ++ echoed s.1 byte)) ([], [])).2

theorem echo_append (text : List Byte) (byte : Byte) :
    echo (text ++ [byte]) = echo text ++ echoed (typedLine text) byte := by
  have line (text : List Byte) :
      (text.foldl (fun s byte => (typed s.1 byte, s.2 ++ echoed s.1 byte)) ([], [])).1 = typedLine text := by
    induction text using List.reverseRecOn with
    | nil => rfl
    | append_singleton text byte ih =>
        rw [List.foldl_append, typedLine_append, ← ih]
        rfl
  rw [echo, List.foldl_append, ← line]
  rfl

theorem puts_shown (s : Editor) (text : List Byte) (plain : ∀ c ∈ text, c ≠ 0x0A) :
    (s.puts text).shown = s.shown ++ text := by
  induction text generalizing s with
  | nil => exact (List.append_nil _).symm
  | cons c text ih =>
      rw [List.forall_mem_cons] at plain
      have rest := ih (s.putc c) plain.2
      have first : (s.putc c).shown = s.shown ++ [c] := by rw [Editor.putc, if_neg plain.1]
      rw [first, List.append_assoc] at rest
      exact rest

theorem turn_shown {s : Editor} {line : List Byte} (tracks : Tracks s line) (byte : Byte) :
    (s.turn byte).shown = s.shown ++ echoed line byte := by
  have empty : 0 < s.count ↔ line ≠ [] := by
    rw [BitVec.lt_def, tracks.count]
    exact List.length_pos_iff
  have left (s : Editor) := puts_shown s Editor.cursorLeft (by decide)
  rw [Editor.turn, echoed]
  by_cases printable : isPrintable byte
  · rw [if_pos printable, if_pos printable]
    have plain : byte ≠ 0x0A := by
      rintro rfl
      exact absurd printable (by decide)
    exact congrArg (s.shown ++ ·) (if_neg plain)
  · rw [if_neg printable, if_neg printable]
    by_cases erasing : erases byte
    · rw [if_pos erasing]
      by_cases more : line ≠ []
      · have space : (((s.puts Editor.cursorLeft).putc 0x20).puts Editor.cursorLeft).shown =
            s.shown ++ (Editor.cursorLeft ++ [0x20] ++ Editor.cursorLeft) := by
          rw [left, Editor.putc, if_neg (by decide), left]
          simp
        rw [if_pos (empty.mpr more), if_pos ⟨erasing, more⟩]
        exact space
      · rw [if_neg (mt empty.mp more), if_neg fun both => more both.2, List.append_nil]
    · rw [if_neg erasing, if_neg fun both => erasing both.1, List.append_nil]

theorem editing_shown {text : List Byte} (buffer : Block) (fits : FitsTyping text) :
    (editing buffer text).shown = echo text := by
  induction text using List.reverseRecOn with
  | nil => rfl
  | append_singleton text byte ih =>
      have before := ((fitsTyping_append text byte).mp fits).1
      rw [editing_append, turn_shown (before.tracks buffer), ih before, echo_append]

inductive Deed where
  | peek (addr : BitVec 32)
  | poke (addr val : BitVec 32)
  | dump (addr : BitVec 32)

/-- The line asks for it: the name with anything behind it, and the numbers in base sixteen. -/
inductive Asks : Deed → List Byte → Prop
  | peek (addr : BitVec 32) (suffix : List Byte) (whole : ∀ c ∈ suffix, c ≠ 0x20) (first : Word) (more : List Word)
      (spells : SpellsHex addr.toNat first.text) :
      Asks (.peek addr) (Verb.peek.name ++ suffix ++ phrase (first :: more))
  | poke (addr val : BitVec 32) (suffix : List Byte) (whole : ∀ c ∈ suffix, c ≠ 0x20) (first second : Word)
      (more : List Word) (spells : SpellsHex addr.toNat first.text) (spellsVal : SpellsHex val.toNat second.text) :
      Asks (.poke addr val) (Verb.poke.name ++ suffix ++ phrase (first :: second :: more))
  | dump (addr : BitVec 32) (suffix : List Byte) (whole : ∀ c ∈ suffix, c ≠ 0x20) (first : Word) (more : List Word)
      (spells : SpellsHex addr.toNat first.text) :
      Asks (.dump addr) (Verb.dump.name ++ suffix ++ phrase (first :: more))

namespace Deed

def call : Deed → Call
  | peek addr => .peek addr
  | poke addr val => .poke addr (val.setWidth 8)
  | dump addr => .memdump addr 256

/-- What is shown for it. -/
def reply (memory : Memory 32) : Deed → List Byte
  | peek addr => hexText 2 (memory addr).toNat
  | poke _ _ => []
  | dump addr => memdump memory addr 256

def effect (memory : Memory 32) : Deed → Memory 32
  | poke addr val => Function.update memory addr (val.setWidth 8)
  | _ => memory

end Deed

section Turn

variable {null : List Byte} {features : Features}

theorem number_spelled {addr : BitVec 32} {text : List Byte} (spells : SpellsHex addr.toNat text) :
    number null (some text) = addr := by
  rw [number, Option.getD_some, strtoul_spelled addr.isLt spells, BitVec.ofNat_toNat, BitVec.setWidth_eq]

theorem parse_verb (verb : Verb) (always : ∀ features : Features, features.has verb = true) {suffix : List Byte}
    (whole : ∀ c ∈ suffix, c ≠ 0x20) (words : List Word) :
    parse null features (verb.name ++ suffix ++ phrase words) = verb.call null (wordParams words) := by
  have found : dispatch features (verb.name ++ suffix ++ phrase words) = some verb := by
    rw [List.append_assoc]
    exact dispatch_iff.mpr ⟨always features, selects_name verb _⟩
  rw [parse, found, params_line verb whole]

theorem parse_asks {deed : Deed} {line : List Byte} (asks : Asks deed line) :
    parse null features line = deed.call := by
  cases asks with
  | peek addr suffix whole first more spells =>
      rw [parse_verb .peek (fun _ => rfl) whole]
      exact congrArg Call.peek (number_spelled spells)
  | poke addr val suffix whole first second more spells spellsVal =>
      rw [parse_verb .poke (fun _ => rfl) whole]
      exact congrArg₂ Call.poke (number_spelled spells) (congrArg _ (number_spelled spellsVal))
  | dump addr suffix whole first more spells =>
      rw [parse_verb .dump (fun _ => rfl) whole]
      exact congrArg (Call.memdump · 256) (number_spelled spells)

theorem perform_deed (handlers : Monitor.Handlers) (s : Monitor) (deed : Deed) :
    s.perform handlers deed.call =
      some { s with memory := deed.effect s.memory, shown := s.shown ++ wire (deed.reply s.memory) } := by
  cases deed with
  | peek addr => rfl
  | poke addr val => simp [Deed.call, Monitor.perform, Deed.effect, Deed.reply, wire]
  | dump addr => rfl

end Turn

/-- A line as it is typed, with its corrections and its end. -/
structure Entry where
  deed : Deed
  keys : List Byte
  last : Byte
  within : ∀ byte ∈ keys, ¬endsLine byte
  ends : endsLine last
  asks : Asks deed (typedLine keys)

def Entry.input (entry : Entry) : List Byte := entry.keys ++ [entry.last]

/-- What a turn shows. -/
def Entry.shown (memory : Memory 32) (entry : Entry) : List Byte :=
  wire Monitor.prompt ++ echo entry.keys ++ wire Monitor.newline ++ wire (entry.deed.reply memory) ++
    wire Monitor.newline

/-- What the turns of a session show, with the memory before it. -/
def session : Memory 32 → List Entry → List Byte
  | _, [] => []
  | memory, entry :: entries => entry.shown memory ++ session (entry.deed.effect memory) entries

theorem typedLine_printable (keys : List Byte) : ∀ c ∈ typedLine keys, isPrintable c := by
  induction keys using List.reverseRecOn with
  | nil => simp [typedLine]
  | append_singleton keys byte ih =>
      rw [typedLine_append, typed]
      split
      · rename_i printable
        rw [List.forall_mem_append, List.forall_mem_singleton]
        exact ⟨ih, printable⟩
      · split
        · exact fun c member => ih c (List.mem_of_mem_dropLast member)
        · exact ih

variable (handlers : Monitor.Handlers) (null : List Byte) (features : Features)

theorem lineOf_read {text : List Byte} (buffer : Block) (fits : FitsTyping text) :
    Monitor.lineOf ((editing buffer text).write 0).buffer (editing buffer text).count.toNat = typedLine text := by
  have tracks := fits.tracks buffer
  have whole := tracks.written_at 0
  rw [List.range_succ, List.map_append] at whole
  have line := (List.append_inj' whole rfl).1
  have plain : ∀ c ∈ typedLine text, decide (c ≠ 0) = true := by
    intro c member
    refine decide_eq_true ?_
    rintro rfl
    exact absurd (typedLine_printable text 0 member) (by decide)
  rw [Monitor.lineOf, tracks.count]
  refine (congrArg _ line).trans ?_
  exact List.takeWhile_eq_self_iff.mpr plain

theorem turn_entry (s : Monitor) (entry : Entry) (fits : LineFits entry.keys) (rest : List Byte)
    (typedIn : s.input = entry.input ++ rest) :
    ∃ buffer, s.turn handlers null features = some {
      buffer := buffer
      memory := entry.deed.effect s.memory
      shown := s.shown ++ entry.shown s.memory
      input := rest } := by
  have read : readline s.buffer s.input = some ((editing s.buffer entry.keys).count,
      (editing s.buffer entry.keys).write 0, rest) := by
    rw [typedIn, Entry.input, List.append_assoc, List.singleton_append]
    exact run_line (.start s.buffer) entry.within entry.ends
  have line := lineOf_read s.buffer fits.typing
  have shown : ((editing s.buffer entry.keys).write 0).shown = echo entry.keys := editing_shown s.buffer fits.typing
  refine ⟨((editing s.buffer entry.keys).write 0).buffer, ?_⟩
  simp only [Monitor.turn, Monitor.puts, read, Option.bind_eq_bind, Option.bind_some, line, shown,
    parse_asks entry.asks, perform_deed, Entry.shown, List.append_assoc]

/-- Lines typed one after the other, with any corrections, none of them longer than the buffer: each
    is answered from the memory that the ones before it have left, and nothing is lost or taken for
    another command. -/
theorem monitor_session_exact (entries : List Entry) (fits : ∀ entry ∈ entries, LineFits entry.keys)
    (s : Monitor) (rest : List Byte) :
    ∃ buffer, Monitor.turns handlers null features entries.length
        { s with input := entries.flatMap Entry.input ++ rest } = some {
      buffer := buffer
      memory := entries.foldl (fun memory entry => entry.deed.effect memory) s.memory
      shown := s.shown ++ session s.memory entries
      input := rest } := by
  induction entries generalizing s with
  | nil => exact ⟨s.buffer, by simp [Monitor.turns, session]⟩
  | cons entry entries ih =>
      rw [List.forall_mem_cons] at fits
      obtain ⟨middle, turned⟩ := turn_entry handlers null features
        { s with input := (entry :: entries).flatMap Entry.input ++ rest } entry fits.1
        (entries.flatMap Entry.input ++ rest) (by rw [List.flatMap_cons, List.append_assoc])
      obtain ⟨buffer, later⟩ := ih fits.2 {
        buffer := middle
        memory := entry.deed.effect s.memory
        shown := s.shown ++ entry.shown s.memory
        input := entries.flatMap Entry.input ++ rest }
      refine ⟨buffer, ?_⟩
      rw [List.length_cons, Monitor.turns, turned]
      simp only [Option.bind_eq_bind, Option.bind_some, later, List.foldl_cons, session, List.append_assoc]

theorem typedLine_length_le (keys : List Byte) : (typedLine keys).length ≤ keys.length := by
  induction keys using List.reverseRecOn with
  | nil => exact Nat.le_refl 0
  | append_singleton keys byte ih =>
      rw [typedLine_append, typed, List.length_append, List.length_singleton]
      split
      · rw [List.length_append, List.length_singleton]
        omega
      · split
        · rw [List.length_dropLast]
          omega
        · omega

theorem fits_of_short {keys : List Byte} (short : keys.length < inputBufferSize) : LineFits keys where
  typing earlier begins :=
    Nat.le_of_lt (Nat.lt_of_le_of_lt ((typedLine_length_le earlier).trans begins.length_le) short)
  ended := Nat.lt_of_le_of_lt (typedLine_length_le keys) short

theorem spelled_address : SpellsHex (0x400 : BitVec 32).toNat address.text :=
  .digits _ (by decide) (by decide) (by decide)

def pokeEntry : Entry where
  deed := .poke 0x400 0x5A
  keys := chars ['p', 'o', 'l', '\x7f', 'k', 'e', ' ', '4', '0', '0', ' ', ' ', '5', 'A']
  last := 0x0D
  within := by decide
  ends := by decide
  asks := .poke 0x400 0x5A [] (by simp) address value [] spelled_address
    (.digits _ (by decide) (by decide) (by decide))

def peekEntry : Entry where
  deed := .peek 0x400
  keys := chars ['p', 'e', 'e', 'k', ' ', '4', '0', '0']
  last := 0x0D
  within := by decide
  ends := by decide
  asks := .peek 0x400 [] (by simp) address [] spelled_address

def bareMonitor (input : List Byte) : Monitor :=
  { buffer := fun _ => 0, memory := fun _ => 0, shown := [], input := input }

theorem poke_then_peek : ∃ buffer,
    Monitor.turns (fun _ _ => none) [] noFeatures 2 (bareMonitor (pokeEntry.input ++ peekEntry.input)) = some {
      buffer := buffer
      memory := Function.update (fun _ => 0) 0x400 0x5A
      shown := pokeEntry.shown (fun _ => 0) ++ chars ['>', ' ', 'p', 'e', 'e', 'k', ' ', '4', '0', '0', '\r', '\r', '\n',
        '5', 'A', '\r', '\r', '\n']
      input := [] } := by
  have short : ∀ entry ∈ [pokeEntry, peekEntry], LineFits entry.keys := by
    rw [List.forall_mem_cons, List.forall_mem_singleton]
    exact ⟨fits_of_short (by decide), fits_of_short (by decide)⟩
  exact monitor_session_exact (fun _ _ => none) [] noFeatures [pokeEntry, peekEntry] short (bareMonitor []) []

end Mackerel.Bootloader
