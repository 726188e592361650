import Mackerel.Ymodem.Turn

namespace Mackerel.Ymodem

open Bytes Serial

/-- A block with its number, or the end of transmission. -/
inductive Item where
  | block (number : Byte) (payload : List Byte)
  | eot

/-- The start byte that tells the length of a block. -/
def startByte (payload : List Byte) : Byte := if payload.length = 128 then soh else stx

def blockBody (number : Byte) (payload : List Byte) : Line Byte :=
  let crc := crc16 (payloadBlock payload) payload.length
  some number :: some (~~~number) ::
    (payload.map some ++ [some (crc.extractLsb' 8 8), some (crc.extractLsb' 0 8)])

def Item.wire : Item → Line Byte
  | .block number payload => some (startByte payload) :: blockBody number payload
  | .eot => [some Ymodem.eot]

def padded (bytes : List Byte) (len : Nat) : List Byte := bytes ++ List.replicate (len - bytes.length) 0

def BlockSized (payload : List Byte) : Prop := payload.length = 128 ∨ payload.length = 1024

variable {payload : List Byte}

theorem startByte_begins (payload : List Byte) : startByte payload = soh ∨ startByte payload = stx := by
  unfold startByte
  split
  · exact .inl rfl
  · exact .inr rfl

theorem BlockSized.length (sized : BlockSized payload) :
    blockLength (startByte payload) = payload.length := by
  unfold startByte
  rcases sized with short | long
  · rw [if_pos short, short]
    rfl
  · rw [if_neg (by omega), long]
    rfl

theorem BlockSized.intact (sized : BlockSized payload) (number : Byte) :
    Intact (blockLength (startByte payload)) (blockBody number payload) number payload := by
  rw [sized.length]
  refine ⟨rfl, _, _, _, rfl, ?_, ?_⟩
  · rw [BitVec.add_not_self]
    rfl
  · exact (@BitVec.extractLsb'_append_extractLsb' 8 8 _).symm

section Arrival

variable {dest : Buffer} {r : Receiver} {number : Byte}

/-- The receiver with a block in `blk`. -/
def Receiver.holding (r : Receiver) (payload : List Byte) : Receiver :=
  { r with idle := 0, blk := overlay 0 payload r.blk }

theorem BlockSized.arrives (sized : BlockSized payload) (dest : Buffer) (r : Receiver)
    (number : Byte) :
    Poll.Consumes (turn dest r) (Item.block number payload).wire
      (acceptBlock dest number payload.length (r.holding payload)) := by
  have arrival := turn_block_consumes dest r (startByte_begins payload) (sized.intact number)
  rw [sized.length] at arrival
  exact arrival

theorem BlockSized.recv_next {after : Receiver} (sized : BlockSized payload)
    (accepted : acceptBlock dest number payload.length (r.holding payload) = .next after)
    (rest : Line Byte) :
    recv dest r ((Item.block number payload).wire ++ rest) = recv dest after rest :=
  Ymodem.recv_next (accepted ▸ (sized.arrives dest r number).result rest)

theorem BlockSized.recv_returned {after : Receiver} {result : Int} (sized : BlockSized payload)
    (accepted : acceptBlock dest number payload.length (r.holding payload) =
      .returned result after) :
    recv dest r (Item.block number payload).wire = .returned result after := by
  have arrival := (sized.arrives dest r number).result []
  rw [List.append_nil, accepted] at arrival
  exact Ymodem.recv_returned arrival

theorem recv_eot (rest : Line Byte) :
    recv dest r (Item.eot.wire ++ rest) = recv dest (onEot { r with idle := 0 }) rest :=
  recv_next (turn_eot_consumes.result rest)

end Arrival

end Mackerel.Ymodem
