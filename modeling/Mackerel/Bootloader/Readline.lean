import Mackerel.Bytes.Memory
import Mathlib.Data.List.Induction
import Mathlib.Data.List.Infix

namespace Mackerel.Bootloader

open Bytes

def inputBufferSize : Nat := 32

def isPrintable (byte : Byte) : Prop := 0x20 ≤ byte ∧ byte < 0x7F

/-- Backspace or delete. -/
def erases (byte : Byte) : Prop := byte = 0x08 ∨ byte = 0x7F

def endsLine (byte : Byte) : Prop := byte = 0x0A ∨ byte = 0x0D

instance : DecidablePred isPrintable := fun byte =>
  inferInstanceAs (Decidable (0x20 ≤ byte ∧ byte < 0x7F))

instance : DecidablePred erases := fun byte => inferInstanceAs (Decidable (byte = 0x08 ∨ byte = 0x7F))

instance : DecidablePred endsLine := fun byte => inferInstanceAs (Decidable (byte = 0x0A ∨ byte = 0x0D))

/-- The variables of `readline`, and what it has done: `written` are the indices of its writes. The
    memory that follows `buffer` is part of the block. -/
structure Editor where
  buffer : Block
  count : BitVec 8
  shown : List Byte
  written : List Nat

namespace Editor

def start (buffer : Block) : Editor := { buffer, count := 0, shown := [], written := [] }

def putc (s : Editor) (byte : Byte) : Editor :=
  { s with shown := s.shown ++ if byte = 0x0A then [0x0D, byte] else [byte] }

def puts (s : Editor) (text : List Byte) : Editor := text.foldl putc s

/-- `buffer[count] = byte` -/
def write (s : Editor) (byte : Byte) : Editor :=
  { s with buffer := Function.update s.buffer s.count.toNat byte
           written := s.written ++ [s.count.toNat] }

/-- `"\e[1D"` -/
def cursorLeft : List Byte := [0x1B, 0x5B, 0x31, 0x44]

/-- One turn of the loop, for a byte that does not end the line. -/
def turn (s : Editor) (byte : Byte) : Editor :=
  if isPrintable byte then
    let next := (s.putc byte).write byte
    { next with count := next.count + 1 }
  else if erases byte then
    if 0 < s.count then
      let next := ((s.puts cursorLeft).putc 0x20).puts cursorLeft
      { next with count := next.count - 1 }
    else s
  else s

/-- Without a result the loop still waits for a byte. -/
def run (s : Editor) : List Byte → Option (BitVec 8 × Editor × List Byte)
  | [] => none
  | byte :: input => if endsLine byte then some (s.count, s.write 0, input) else (s.turn byte).run input

end Editor

def readline (buffer : Block) (input : List Byte) : Option (BitVec 8 × Editor × List Byte) :=
  (Editor.start buffer).run input

/-- What a byte makes of a line without a limit. -/
def typed (line : List Byte) (byte : Byte) : List Byte :=
  if isPrintable byte then line ++ [byte] else if erases byte then line.dropLast else line

def typedLine (text : List Byte) : List Byte := text.foldl typed []

/-- The line with room for the zero behind it. -/
def cutLine (text : List Byte) : List Byte := (typedLine text).take (inputBufferSize - 1)

/-- The editor between two bytes. -/
def editing (buffer : Block) (text : List Byte) : Editor := text.foldl Editor.turn (.start buffer)

/-- `count` goes up with every printable byte, and with no other. -/
def NeverWraps (buffer : Block) (text : List Byte) : Prop :=
  ∀ earlier byte, earlier ++ [byte] <+: text →
    if isPrintable byte then
      (editing buffer (earlier ++ [byte])).count.toNat = (editing buffer earlier).count.toNat + 1
    else (editing buffer (earlier ++ [byte])).count ≤ (editing buffer earlier).count

/-- A line has been read as it was typed, and nothing was written behind `buffer`. -/
structure LineRead (buffer : Block) (text : List Byte) (count : BitVec 8) (after : Editor) : Prop where
  inside : ∀ k ∈ after.written, k < inputBufferSize
  unwrapped : NeverWraps buffer text
  line : (List.range ((cutLine text).length + 1)).map after.buffer = cutLine text ++ [0]
  count : count.toNat = (cutLine text).length

/-- The line is never longer than the buffer. -/
def FitsTyping (text : List Byte) : Prop :=
  ∀ earlier, earlier <+: text → (typedLine earlier).length ≤ inputBufferSize

/-- The line fits while it is typed, and at its end there is room for the zero. -/
structure LineFits (text : List Byte) : Prop where
  typing : FitsTyping text
  ended : (typedLine text).length < inputBufferSize

/-- What the buffer holds and the count says, while the line is typed. -/
structure Tracks (s : Editor) (line : List Byte) : Prop where
  count : s.count.toNat = line.length
  holds : (List.range line.length).map s.buffer = line

section Turn

variable {s : Editor} {line : List Byte} {byte : Byte}

theorem Editor.puts_kept (s : Editor) (text : List Byte) :
    (s.puts text).buffer = s.buffer ∧ (s.puts text).count = s.count ∧
      (s.puts text).written = s.written := by
  induction text generalizing s with
  | nil => exact ⟨rfl, rfl, rfl⟩
  | cons byte text induction_hypothesis => exact induction_hypothesis (s.putc byte)

theorem Editor.turn_printable (printable : isPrintable byte) :
    (s.turn byte).count = s.count + 1 ∧
      (s.turn byte).buffer = Function.update s.buffer s.count.toNat byte ∧
      (s.turn byte).written = s.written ++ [s.count.toNat] := by
  rw [turn, if_pos printable]
  exact ⟨rfl, rfl, rfl⟩

theorem Editor.turn_control (control : ¬isPrintable byte) :
    (s.turn byte).count = (if erases byte ∧ 0 < s.count then s.count - 1 else s.count) ∧
      (s.turn byte).buffer = s.buffer ∧ (s.turn byte).written = s.written := by
  rw [turn, if_neg control]
  by_cases erasing : erases byte
  · rw [if_pos erasing]
    by_cases more : 0 < s.count
    · have first := s.puts_kept cursorLeft
      have second := ((s.puts cursorLeft).putc 0x20).puts_kept cursorLeft
      rw [if_pos more, if_pos ⟨erasing, more⟩]
      refine ⟨?_, second.1.trans first.1, second.2.2.trans first.2.2⟩
      exact congrArg (· - 1) (second.2.1.trans first.2.1)
    · rw [if_neg more, if_neg fun both => more both.2]
      exact ⟨rfl, rfl, rfl⟩
  · rw [if_neg erasing, if_neg fun both => erasing both.1]
    exact ⟨rfl, rfl, rfl⟩

theorem tracks_start (buffer : Block) : Tracks (.start buffer) [] := ⟨rfl, rfl⟩

theorem Tracks.written_at (tracks : Tracks s line) (value : Byte) :
    (List.range (line.length + 1)).map (Function.update s.buffer s.count.toNat value) =
      line ++ [value] := by
  rw [List.range_succ, List.map_append, List.map_singleton, tracks.count, Function.update_self]
  congr 1
  calc (List.range line.length).map (Function.update s.buffer line.length value)
      = (List.range line.length).map s.buffer := by
        refine List.map_congr_left fun k member => Function.update_of_ne ?_ _ _
        exact Nat.ne_of_lt (List.mem_range.mp member)
    _ = line := tracks.holds

theorem Tracks.erased (tracks : Tracks s line) :
    (List.range line.dropLast.length).map s.buffer = line.dropLast := by
  calc (List.range line.dropLast.length).map s.buffer
      = ((List.range line.length).map s.buffer).dropLast := by
        rw [List.length_dropLast, List.dropLast_eq_take, ← List.map_take, List.length_map,
          List.length_range, List.take_range, Nat.min_eq_left (Nat.sub_le _ _)]
    _ = line.dropLast := by rw [tracks.holds]

/-- One byte edits the line, while `count` can still count. -/
theorem Tracks.turn (tracks : Tracks s line) (room : line.length < 255) :
    Tracks (s.turn byte) (typed line byte) := by
  rw [typed]
  by_cases printable : isPrintable byte
  · obtain ⟨count, buffer, _⟩ := s.turn_printable printable
    rw [if_pos printable]
    constructor
    · have added : (s.count + 1).toNat = (s.count.toNat + 1) % 256 := BitVec.toNat_add _ _
      rw [count, added, tracks.count, List.length_append, List.length_singleton]
      exact Nat.mod_eq_of_lt (by omega)
    · rw [buffer, List.length_append, List.length_singleton]
      exact tracks.written_at byte
  · obtain ⟨count, buffer, _⟩ := s.turn_control printable
    rw [if_neg printable]
    by_cases erasing : erases byte
    · rw [if_pos erasing]
      constructor
      · rw [count, List.length_dropLast]
        by_cases more : 0 < s.count
        · have positive : 0 < s.count.toNat := BitVec.lt_def.mp more
          have one : (1 : BitVec 8) ≤ s.count := BitVec.le_def.mpr positive
          rw [if_pos ⟨erasing, more⟩, BitVec.toNat_sub_of_le one, tracks.count]
          rfl
        · have empty : s.count.toNat = 0 :=
            Nat.eq_zero_of_not_pos fun positive => more (BitVec.lt_def.mpr positive)
          rw [if_neg fun both => more both.2, empty, ← tracks.count, empty]
      · rw [buffer]
        exact tracks.erased
    · rw [if_neg erasing]
      rw [if_neg fun both => erasing both.1] at count
      exact ⟨count ▸ tracks.count, buffer ▸ tracks.holds⟩

theorem length_typed_printable (printable : isPrintable byte) :
    (typed line byte).length = line.length + 1 := by
  rw [typed, if_pos printable, List.length_append, List.length_singleton]

theorem length_typed_control (control : ¬isPrintable byte) : (typed line byte).length ≤ line.length := by
  rw [typed, if_neg control]
  by_cases erasing : erases byte
  · simp [erasing]
  · simp [erasing]

end Turn

section Run

variable (buffer : Block) (text : List Byte) (byte : Byte)

theorem editing_append : editing buffer (text ++ [byte]) = (editing buffer text).turn byte :=
  List.foldl_append

theorem typedLine_append : typedLine (text ++ [byte]) = typed (typedLine text) byte := List.foldl_append

theorem fitsTyping_append :
    FitsTyping (text ++ [byte]) ↔
      FitsTyping text ∧ (typedLine (text ++ [byte])).length ≤ inputBufferSize := by
  constructor
  · intro fits
    refine ⟨fun earlier start => fits earlier (start.trans (List.prefix_append _ _)), ?_⟩
    exact fits _ (List.prefix_refl _)
  · intro ⟨before, now⟩ earlier start
    rcases List.prefix_concat_iff.mp start with rfl | start
    · exact now
    · exact before earlier start

variable {text}

/-- The editor tracks the line as long as it fits. -/
theorem FitsTyping.tracks (fits : FitsTyping text) : Tracks (editing buffer text) (typedLine text) := by
  induction text using List.reverseRecOn with
  | nil => exact tracks_start buffer
  | append_singleton text byte induction_hypothesis =>
      have before := ((fitsTyping_append text byte).mp fits).1
      have short : (typedLine text).length ≤ 32 := before text (List.prefix_refl _)
      rw [editing_append, typedLine_append]
      exact (induction_hypothesis before).turn (by omega)

/-- A write behind the buffer is the same as a line that is longer than it. -/
theorem written_inside_iff (text : List Byte) :
    (∀ k ∈ (editing buffer text).written, k < inputBufferSize) ↔ FitsTyping text := by
  induction text using List.reverseRecOn with
  | nil =>
      refine ⟨fun _ earlier start => ?_, fun _ k member => nomatch member⟩
      rw [List.prefix_nil.mp start]
      exact Nat.zero_le _
  | append_singleton text byte induction_hypothesis =>
      rw [fitsTyping_append, ← induction_hypothesis, editing_append, typedLine_append]
      by_cases printable : isPrintable byte
      · obtain ⟨-, -, written⟩ := (editing buffer text).turn_printable printable
        rw [written, length_typed_printable printable, List.forall_mem_append, List.forall_mem_singleton]
        refine and_congr_right fun inside => ?_
        rw [((induction_hypothesis.mp inside).tracks buffer).count]
        exact Iff.rfl
      · obtain ⟨-, -, written⟩ := (editing buffer text).turn_control printable
        rw [written]
        refine ⟨fun inside => ⟨inside, ?_⟩, And.left⟩
        have short := induction_hypothesis.mp inside text (List.prefix_refl _)
        exact Nat.le_trans (length_typed_control printable) short

theorem FitsTyping.neverWraps (fits : FitsTyping text) : NeverWraps buffer text := by
  intro earlier byte start
  have later : FitsTyping (earlier ++ [byte]) := fun _ before => fits _ (before.trans start)
  have sooner := ((fitsTyping_append earlier byte).mp later).1
  have tracks := later.tracks buffer
  by_cases printable : isPrintable byte
  · rw [if_pos printable, tracks.count, (sooner.tracks buffer).count, typedLine_append,
      length_typed_printable printable]
  · rw [if_neg printable, BitVec.le_def, tracks.count, (sooner.tracks buffer).count, typedLine_append]
    exact length_typed_control printable

theorem run_line (s : Editor) {rest : List Byte} {last : Byte} (within : ∀ byte ∈ text, ¬endsLine byte)
    (ends : endsLine last) :
    s.run (text ++ last :: rest) =
      some ((text.foldl Editor.turn s).count, (text.foldl Editor.turn s).write 0, rest) := by
  induction text generalizing s with
  | nil => exact if_pos ends
  | cons byte text induction_hypothesis =>
      rw [List.forall_mem_cons] at within
      rw [List.cons_append, Editor.run, if_neg within.1, induction_hypothesis _ within.2,
        List.foldl_cons]

end Run

theorem cutLine_of_short {text : List Byte} (short : (typedLine text).length < inputBufferSize) :
    cutLine text = typedLine text :=
  List.take_of_length_le (Nat.le_pred_of_lt short)

/-- Every line ended by a line feed or a carriage return is returned, and it is read as typed just
    when it fits. -/
theorem readline_reads_iff (buffer : Block) (text rest : List Byte) (last : Byte)
    (within : ∀ byte ∈ text, ¬endsLine byte) (ends : endsLine last) :
    ∃ count after, readline buffer (text ++ last :: rest) = some (count, after, rest) ∧
      (LineRead buffer text count after ↔ LineFits text) := by
  refine ⟨_, _, run_line (.start buffer) within ends, ?_⟩
  constructor
  · intro read
    have written := read.inside
    rw [Editor.write, List.forall_mem_append, List.forall_mem_singleton] at written
    have typing := (written_inside_iff buffer text).mp written.1
    exact ⟨typing, (typing.tracks buffer).count ▸ written.2⟩
  · intro ⟨fits, ended⟩
    have tracks := fits.tracks buffer
    have last := tracks.count ▸ ended
    constructor
    · rw [Editor.write, List.forall_mem_append, List.forall_mem_singleton]
      exact ⟨(written_inside_iff buffer text).mpr fits, last⟩
    · exact fits.neverWraps buffer
    · rw [cutLine_of_short ended]
      exact tracks.written_at 0
    · rw [cutLine_of_short ended]
      exact tracks.count

/-- `boox`, a backspace and `t` is read as `boot`. -/
theorem corrected_line_read :
    ∃ count after, readline (fun _ => 0xFF) ([0x62, 0x6F, 0x6F, 0x78, 0x08, 0x74] ++ [0x0D]) =
        some (count, after, []) ∧
      LineRead (fun _ => 0xFF) [0x62, 0x6F, 0x6F, 0x78, 0x08, 0x74] count after := by
  obtain ⟨count, after, result, reads⟩ := readline_reads_iff (fun _ => 0xFF)
    [0x62, 0x6F, 0x6F, 0x78, 0x08, 0x74] [] 0x0D (by decide) (by decide)
  have typing : ∀ earlier ∈ List.inits [0x62, 0x6F, 0x6F, 0x78, 0x08, 0x74],
      (typedLine earlier).length ≤ inputBufferSize := by decide
  refine ⟨count, after, result, reads.mpr ⟨fun earlier start => ?_, by decide⟩⟩
  exact typing earlier ((List.mem_inits _ _).mpr start)

/-- The zero behind thirty-two letters is written behind the buffer. -/
theorem full_line_overruns :
    ∃ count after, readline (fun _ => 0xFF) (List.replicate 32 0x61 ++ [0x0D]) =
        some (count, after, []) ∧
      inputBufferSize ∈ after.written ∧ ¬LineRead (fun _ => 0xFF) (List.replicate 32 0x61) count after := by
  refine ⟨_, _, rfl, ?_⟩
  have overrun : inputBufferSize ∈
      ((editing (fun _ => 0xFF) (List.replicate 32 0x61)).write 0).written := by decide +kernel
  exact ⟨overrun, fun read => Nat.lt_irrefl _ (read.inside _ overrun)⟩

end Mackerel.Bootloader
