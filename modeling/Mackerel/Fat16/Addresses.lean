import Mackerel.Fat16.Directory

namespace Mackerel.Fat16

open Bytes

/-- A call at an address of the volume in the partition that starts at `p`. -/
def RelativeTo (p : BitVec 32) (bootSector : BootSector) (call : ReadCall) : Prop :=
  match call.purpose with
  | .bootSector => call.lba = p.toNat
  | .rootDirectory => call.lba = rootDirSector bootSector p
  | .fat => ∃ cluster, call.lba = fatSector bootSector p cluster
  | .data => ∃ cluster i, i + call.count ≤ bootSector.sectorsPerCluster.toNat ∧
      call.lba = u32 (firstSectorOfCluster bootSector p cluster + i : Nat)

/-- A call that fails only if the medium fails it. -/
structure Served (medium : Medium) (p : BitVec 32) (bootSector : BootSector) (call : ReadCall) :
    Prop where
  relative : RelativeTo p bootSector call
  outcome : call.ok = false → ∃ k, medium.faults k ≠ none

/-- From one state to another the partition stays, and the log grows by calls with a property. -/
structure Extends (P : ReadCall → Prop) (before after : State) : Prop where
  partLba : after.partLba = before.partLba
  log : ∃ calls, after.reads = before.reads ++ calls ∧ ∀ call ∈ calls, P call

variable {P : ReadCall → Prop} {before middle after : State}

theorem Extends.refl (s : State) : Extends P s s :=
  ⟨rfl, [], (List.append_nil _).symm, by simp⟩

theorem Extends.trans (first : Extends P before middle) (second : Extends P middle after) :
    Extends P before after := by
  obtain ⟨early, grows, earlyHolds⟩ := first.log
  obtain ⟨late, growsAgain, lateHolds⟩ := second.log
  refine ⟨second.partLba.trans first.partLba, early ++ late, ?_, ?_⟩
  · rw [growsAgain, grows, List.append_assoc]
  · exact List.forall_mem_append.mpr ⟨earlyHolds, lateHolds⟩

theorem Extends.single {call : ReadCall} (partLba : after.partLba = before.partLba)
    (log : after.reads = before.reads ++ [call]) (holds : P call) : Extends P before after :=
  ⟨partLba, [call], log, by simpa using holds⟩

theorem firstSectorOfCluster_lt (bootSector : BootSector) (p : BitVec 32) (cluster : BitVec 16) :
    firstSectorOfCluster bootSector p cluster < 2 ^ 32 := u32_lt _

section

variable {medium : Medium} {bootSector : BootSector} {buffer : BitVec 32}
  {bufferSize bufferIndex : Nat} {cluster : BitVec 16}

theorem exists_fault {k : Nat} (failed : (medium.faults k).isNone = false) :
    ∃ k, medium.faults k ≠ none := by
  refine ⟨k, ?_⟩
  intro none
  rw [none] at failed
  cases failed

theorem readSectors_extends {p : BitVec 32} {left i : Nat} {result : Option Nat}
    (inside : i + left ≤ bootSector.sectorsPerCluster.toNat)
    (read : readSectors medium bootSector buffer bufferSize
      (firstSectorOfCluster bootSector p cluster) left i bufferIndex before = .ok (result, after)) :
    Extends (Served medium p bootSector) before after := by
  induction left generalizing i bufferIndex before with
  | zero =>
      cases read
      exact .refl _
  | succ left induction_hypothesis =>
      have served : Served medium p bootSector
          { purpose := .data
            lba := u32 ((firstSectorOfCluster bootSector p cluster : Int) + i), count := 1
            ok := (medium.faults before.reads.length).isNone } :=
        ⟨⟨cluster, i, by dsimp only; omega, rfl⟩, exists_fault⟩
      have rest : i + 1 + left ≤ bootSector.sectorsPerCluster.toNat := by omega
      rw [readSectors] at read
      split at read
      · dsimp only at read
        split at read
        · split at read
          · refine Extends.trans ?_ (induction_hypothesis rest read)
            exact .single rfl rfl served
          · cases read
            exact .single rfl rfl served
        · split at read
          · cases read
          · split at read
            · refine Extends.trans ?_ (induction_hypothesis rest read)
              exact .single rfl rfl served
            · cases read
              exact .single rfl rfl served
      · cases read
        exact .refl _

theorem readCluster_extends {result : Option Nat}
    (read : readCluster medium bootSector buffer bufferSize cluster bufferIndex before =
      .ok (result, after)) :
    Extends (Served medium before.partLba bootSector) before after := by
  unfold readCluster at read
  dsimp only at read
  split at read
  · have served : Served medium before.partLba bootSector
        { purpose := .data, lba := firstSectorOfCluster bootSector before.partLba cluster
          count := bootSector.sectorsPerCluster.toNat
          ok := (medium.faults before.reads.length).isNone } := by
      refine ⟨⟨cluster, 0, by simp, ?_⟩, exists_fault⟩
      rw [Nat.add_zero, u32_of_lt (firstSectorOfCluster_lt _ _ _)]
    split at read
    · cases read
      exact .single rfl rfl served
    · cases read
      exact .single rfl rfl served
  · exact readSectors_extends (by omega) read

theorem getFatEntry_call {disk : Disk} {fault : Option Garbage} {p : BitVec 32} {cache : FatCache}
    {entry : FatEntry} {call : ReadCall}
    (found : getFatEntry disk fault bootSector p cluster cache = .ok entry)
    (made : entry.call = some call) :
    call.purpose = .fat ∧ call.lba = fatSector bootSector p cluster ∧ call.ok = fault.isNone := by
  unfold getFatEntry at found
  by_cases zero : bootSector.bytesPerSector = 0
  · rw [if_pos zero] at found
    cases found
  · rw [if_neg zero] at found
    dsimp only at found
    split at found
    · split at found
      · cases found
        cases made
        exact ⟨rfl, rfl, rfl⟩
      · split at found
        · cases found
          cases made
          exact ⟨rfl, rfl, rfl⟩
        · cases found
    · split at found
      · cases found
        cases made
      · cases found

theorem State.getFatEntry_extends {next : BitVec 16}
    (found : before.getFatEntry medium bootSector cluster = .ok (next, after)) :
    Extends (Served medium before.partLba bootSector) before after := by
  unfold State.getFatEntry at found
  cases lookup : Fat16.getFatEntry medium.disk (medium.faults before.reads.length) bootSector
    before.partLba cluster before.cache with
  | error stop =>
      rw [lookup] at found
      cases found
  | ok entry =>
      rw [lookup] at found
      cases found
      refine ⟨rfl, _, rfl, ?_⟩
      intro call member
      obtain ⟨purpose, lba, ok⟩ := getFatEntry_call lookup (Option.mem_toList.mp member)
      refine ⟨?_, fun failed => exists_fault (ok ▸ failed)⟩
      rw [RelativeTo, purpose]
      exact ⟨cluster, lba⟩

theorem readClusters_extends {fuel : Nat} {outcome : Int × State}
    (ran : readClusters medium bootSector buffer bufferSize fuel cluster bufferIndex before =
      .ok outcome) :
    Extends (Served medium before.partLba bootSector) before outcome.2 := by
  induction fuel generalizing cluster bufferIndex before with
  | zero => cases ran
  | succ fuel induction_hypothesis =>
      rw [readClusters] at ran
      split at ran
      · split at ran
        · cases ran
        · rename_i read
          cases ran
          exact readCluster_extends read
        · rename_i middle read
          have first := readCluster_extends read
          split at ran
          · cases ran
          · rename_i found
            have second := State.getFatEntry_extends found
            have rest := induction_hypothesis ran
            rw [second.partLba, first.partLba] at rest
            rw [first.partLba] at second
            exact first.trans (second.trans rest)
      · cases ran
        exact .refl _

theorem fat16ReadFile_extends {fuel : Nat} {outcome : Int × State}
    (ran : fat16ReadFile medium bootSector buffer bufferSize fuel cluster before = .ok outcome) :
    Extends (Served medium before.partLba bootSector) before outcome.2 := by
  unfold fat16ReadFile at ran
  split at ran
  · cases ran
  · exact readClusters_extends ran

end

end Mackerel.Fat16
