import Mackerel.M08.SdInit

namespace Mackerel.M08

open Bytes Device Duart Spi

variable {c : SdCard} {events before : List Event} {polls commands : Nat}

theorem run_append (events more : List Event) : c.run (events ++ more) = more.foldl c.step (c.run events) :=
  List.foldl_append

theorem shiftOut_eq (s : SdState) : ∃ out stream, c.shiftOut s = { s with out := out, stream := stream } := by
  rw [SdCard.shiftOut]
  split <;> exact ⟨_, _, rfl⟩

/-- A card that is selected collects the bytes of a command. -/
theorem receive_collects {s : SdState} (selected : s.selected = true) {b : Byte}
    (begins : s.frame = [] → b &&& 0xC0 = 0x40) (inside : s.frame.length < 5) :
    ∃ out stream, c.receive s b = { s with frame := s.frame ++ [b], out := out, stream := stream } := by
  obtain ⟨out, stream, shifted⟩ := @shiftOut_eq c s
  refine ⟨out, stream, ?_⟩
  rw [SdCard.receive, if_neg (by simp [selected]), shifted]
  dsimp only
  split
  · rename_i none
    rw [if_pos (begins none), none]
    rfl
  · rename_i five
    rw [five] at inside
    exact absurd inside (by simp)
  · rfl

theorem receive_executes {s : SdState} (selected : s.selected = true) {b0 b1 b2 b3 b4 b : Byte}
    (frame : s.frame = [b0, b1, b2, b3, b4]) : ∃ out stream,
      c.receive s b = c.execute { s with out := out, stream := stream } (b0 &&& 0x3F).toNat (b1 ++ b2 ++ b3 ++ b4) := by
  obtain ⟨out, stream, shifted⟩ := @shiftOut_eq c s
  refine ⟨out, stream, ?_⟩
  rw [SdCard.receive, if_neg (by simp [selected]), shifted]
  dsimp only
  rw [frame]

/-- Six bytes are a command, whatever the card is sending meanwhile. -/
theorem receive_command {s : SdState} (selected : s.selected = true) (frame : s.frame = [])
    {b0 b1 b2 b3 b4 b5 : Byte} (begins : b0 &&& 0xC0 = 0x40) : ∃ out stream,
      [b0, b1, b2, b3, b4, b5].foldl c.receive s =
        c.execute { s with frame := [b0, b1, b2, b3, b4], out := out, stream := stream }
          (b0 &&& 0x3F).toNat (b1 ++ b2 ++ b3 ++ b4) := by
  obtain ⟨out0, stream0, first⟩ := @receive_collects c s selected b0 (fun _ => begins) (by simp [frame])
  rw [frame, List.nil_append] at first
  obtain ⟨out1, stream1, second⟩ := @receive_collects c { s with frame := [b0], out := out0, stream := stream0 }
    selected b1 (fun none => absurd none (by simp)) (by simp)
  obtain ⟨out2, stream2, third⟩ := @receive_collects c { s with frame := [b0, b1], out := out1, stream := stream1 }
    selected b2 (fun none => absurd none (by simp)) (by simp)
  obtain ⟨out3, stream3, fourth⟩ := @receive_collects c
    { s with frame := [b0, b1, b2], out := out2, stream := stream2 } selected b3
    (fun none => absurd none (by simp)) (by simp)
  obtain ⟨out4, stream4, fifth⟩ := @receive_collects c
    { s with frame := [b0, b1, b2, b3], out := out3, stream := stream3 } selected b4
    (fun none => absurd none (by simp)) (by simp)
  obtain ⟨out5, stream5, last⟩ := @receive_executes c
    { s with frame := [b0, b1, b2, b3, b4], out := out4, stream := stream4 } selected b0 b1 b2 b3 b4 b5 rfl
  refine ⟨out5, stream5, ?_⟩
  simp only [List.cons_append, List.nil_append] at second third fourth fifth
  simp only [List.foldl_cons, List.foldl_nil, first, second, third, fourth, fifth]
  exact last

theorem argument_bytes (arg : BitVec 32) :
    arg.extractLsb' 24 8 ++ arg.extractLsb' 16 8 ++ arg.extractLsb' 8 8 ++ arg.extractLsb' 0 8 = arg := by
  rw [BitVec.extractLsb'_append_extractLsb'_eq_extractLsb' (by decide),
    BitVec.extractLsb'_append_extractLsb'_eq_extractLsb' (by decide),
    BitVec.extractLsb'_append_extractLsb'_eq_extractLsb' (by decide)]
  exact BitVec.extractLsb'_eq_self

/-- A selected card that is ready, with bytes on their way. -/
def speaking (out : List Byte) (stream : Option (Nat × BitVec 32 × Nat)) (polls commands : Nat) : SdState :=
  ⟨true, [], out, stream, true, false, polls, commands⟩

theorem command_run {s : SdState} (cmd : Byte) (begins : (0x40 + cmd) &&& 0xC0 = 0x40) (arg : BitVec 32)
    (selected : s.selected = true) (frame : s.frame = []) : ∃ frame out stream,
      (command cmd arg).foldl c.receive s =
        c.execute { s with frame := frame, out := out, stream := stream } ((0x40 + cmd) &&& 0x3F).toNat arg := by
  obtain ⟨out, stream, ran⟩ := @receive_command c s selected frame (0x40 + cmd) (arg.extractLsb' 24 8)
    (arg.extractLsb' 16 8) (arg.extractLsb' 8 8) (arg.extractLsb' 0 8) 0x01 begins
  rw [argument_bytes] at ran
  exact ⟨_, out, stream, ran⟩

/-- The delayed answer to the command with a number. -/
def response (c : SdCard) (command : Nat) (bytes : List Byte) : List Byte :=
  List.replicate (c.r1Delay command) 0xFF ++ bytes

variable (counts : c.highCapacity = true)

include counts

omit counts

/-- An idle byte behind the last byte but one, or without a block to follow. -/
theorem idle_run {byte : Byte} {out : List Byte} {stream : Option (Nat × BitVec 32 × Nat)}
    (speaks : c.run events = speaking (byte :: out) stream polls commands)
    (more : out ≠ [] ∨ stream = none) :
    c.run (events ++ [.byte 0xFF]) = speaking out stream polls commands := by
  rw [run_append, speaks]
  cases out with
  | cons next out => rfl
  | nil =>
      obtain rfl := more.resolve_left (not_not_intro rfl)
      rfl

variable (start buf : BitVec 32) (memory : Memory 32)

end Mackerel.M08
