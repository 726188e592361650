import Mackerel.W5500.Driver

namespace Mackerel.Netboot

open Bytes Loops W5500

/-- `struct.pack(">I", value)`, which takes no more than 32 bits. -/
def structPack (value : Nat) : Option (List Byte) :=
  if value < 2 ^ 32 then
    let word := BitVec.ofNat 32 value
    some [word.extractLsb' 24 8, word.extractLsb' 16 8, word.extractLsb' 8 8, word.extractLsb' 0 8]
  else none

/-- `length_prefixed`, on the contents of the file. -/
def lengthPrefixed (data : List Byte) : Option (List Byte) := do
  let length ← structPack data.length
  pure (length ++ data)

/-- The same on all boards with `HAS_NETBOOT`. -/
def programStart : BitVec 32 := 0x400

def mac : List Byte := [0x02, 0x4D, 0x4B, 0x52, 0x46, 0x01]
def ip : List Byte := [192, 168, 1, 199]
def gw : List Byte := [192, 168, 1, 1]
def sub : List Byte := [255, 255, 255, 0]
def srv : List Byte := [192, 168, 1, 200]
def serverPort : BitVec 16 := 5000
def srcPort : BitVec 16 := 3333

structure Machine where
  memory : Memory 32
  nic : Nic

structure Loaded where
  ok : Bool
  memory : Memory 32
  nic : Nic

variable (network : Network)

/-- The length in the array `lb`, which is an object of its own. -/
def blobLength (lb : Memory 32) : Nat := (lb 0 ++ lb 1 ++ lb 2 ++ lb 3).toNat

def netbootBlob (addr : BitVec 32) (lb : Memory 32) (fuel : Nat) (memory : Memory 32) (nic : Nic) :
    Status Machine Loaded :=
  match w5500TcpRecv (exchange network) 0 4 fuel lb nic with
  | .again r => .again ⟨memory, r.nic⟩
  | .done ⟨false, _, nic⟩ => .done ⟨false, memory, nic⟩
  | .done ⟨true, lb, nic⟩ =>
      match w5500TcpRecv (exchange network) addr (blobLength lb) fuel memory nic with
      | .again r => .again ⟨r.object, r.nic⟩
      | .done ⟨ok, memory, nic⟩ => .done ⟨ok, memory, nic⟩

/-- The fuel bounds the turns of each receive loop. -/
def netbootLoad (lb : Memory 32) (fuel : Nat) (memory : Memory 32) (nic : Nic) :
    Status Machine Loaded :=
  match w5500Init (exchange network) mac ip gw sub nic with
  | (false, nic) => .done ⟨false, memory, nic⟩
  | (true, nic) =>
      match w5500TcpConnect (exchange network) srv serverPort srcPort nic with
      | (false, nic) => .done ⟨false, memory, nic⟩
      | (true, nic) =>
          match netbootBlob network programStart lb fuel memory nic with
          | .again machine => .again machine
          | .done ⟨ok, memory, nic⟩ => .done ⟨ok, memory, (w5500TcpClose (exchange network) nic).2⟩

end Mackerel.Netboot
