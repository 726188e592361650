import Mackerel.Fat16.ReadFile

namespace Mackerel.Fat16

open Bytes

/-- The buffer holds the sector of its tag. -/
def FatCache.Mirrors (disk : Disk) (cache : FatCache) : Prop :=
  ∀ i, i < 512 → cache.fatBuffer i = disk cache.cachedSector i

theorem FatCache.mirrors_transfer (disk : Disk) (sector : Nat) (old : Block) :
    FatCache.Mirrors disk
      { cachedSector := sector, fatBuffer := disk.transfer none sector 1 old } := by
  intro i inside
  dsimp only
  rw [Disk.transfer_ok (by omega), Nat.div_eq_of_lt inside, Nat.mod_eq_of_lt inside, Nat.add_zero]

theorem getFatEntry_cache {disk : Disk} {bootSector : BootSector} {partLba : BitVec 32}
    {cluster : BitVec 16} {cache : FatCache} {entry : FatEntry}
    (found : getFatEntry disk none bootSector partLba cluster cache = .ok entry) :
    entry.cache = cache ∨ entry.cache.Mirrors disk := by
  unfold getFatEntry at found
  by_cases zero : bootSector.bytesPerSector = 0
  · rw [if_pos zero] at found
    cases found
  · rw [if_neg zero] at found
    by_cases inside : fatEntryOffset bootSector cluster + 1 < 1024
    · by_cases hit : fatSector bootSector partLba cluster = cache.cachedSector
      · simp only [hit, inside, if_true, if_false, ne_eq, not_true] at found
        cases found
        exact .inl rfl
      · simp only [hit, inside, Option.isSome_none, Bool.false_eq_true, if_true, if_false, ne_eq,
          not_false_eq_true] at found
        cases found
        exact .inr (FatCache.mirrors_transfer disk _ _)
    · by_cases hit : fatSector bootSector partLba cluster = cache.cachedSector
      · simp [hit, inside] at found
      · simp [hit, inside] at found

section

variable {medium : Medium} {bootSector : BootSector} {buffer : BitVec 32}
  {bufferSize bufferIndex : Nat} {cluster : BitVec 16} {before after : State}

theorem readSectors_cache {firstSector left i : Nat} {result : Option Nat}
    (read : readSectors medium bootSector buffer bufferSize firstSector left i bufferIndex before =
      .ok (result, after)) :
    after.cache = before.cache := by
  induction left generalizing i bufferIndex before with
  | zero =>
      cases read
      rfl
  | succ left induction_hypothesis =>
      rw [readSectors] at read
      split at read
      · dsimp only at read
        split at read
        · split at read
          · exact (induction_hypothesis read).trans rfl
          · cases read
            rfl
        · split at read
          · cases read
          · split at read
            · exact (induction_hypothesis read).trans rfl
            · cases read
              rfl
      · cases read
        rfl

theorem readCluster_cache {result : Option Nat}
    (read : readCluster medium bootSector buffer bufferSize cluster bufferIndex before =
      .ok (result, after)) :
    after.cache = before.cache := by
  unfold readCluster at read
  dsimp only at read
  split at read
  · split at read
    · cases read
      rfl
    · cases read
      rfl
  · exact readSectors_cache read

theorem State.getFatEntry_cache {next : BitVec 16} (reliable : ∀ call, medium.faults call = none)
    (found : before.getFatEntry medium bootSector cluster = .ok (next, after)) :
    after.cache = before.cache ∨ after.cache.Mirrors medium.disk := by
  unfold State.getFatEntry at found
  rw [reliable] at found
  cases lookup : Fat16.getFatEntry medium.disk none bootSector before.partLba cluster before.cache with
  | error stop =>
      rw [lookup] at found
      cases found
  | ok entry =>
      rw [lookup] at found
      cases found
      exact Fat16.getFatEntry_cache lookup

/-- One turn of the loop, by the way in which it ends. -/
theorem readClusters_cases {fuel : Nat} {outcome : Int × State}
    (ran : readClusters medium bootSector buffer bufferSize (fuel + 1) cluster bufferIndex before =
      .ok outcome) :
    outcome.2.cache = before.cache ∧
        (∀ more, readClusters medium bootSector buffer bufferSize (more + 1) cluster bufferIndex
          before = .ok outcome) ∨
      ∃ index next middle found,
        readCluster medium bootSector buffer bufferSize cluster bufferIndex before =
          .ok (some index, middle) ∧
        middle.getFatEntry medium bootSector cluster = .ok (next, found) ∧
        readClusters medium bootSector buffer bufferSize fuel next index found = .ok outcome ∧
        ∀ more, readClusters medium bootSector buffer bufferSize (more + 1) cluster bufferIndex
          before = readClusters medium bootSector buffer bufferSize more next index found := by
  simp only [readClusters] at ran ⊢
  by_cases more : cluster ≠ 0xFFFF ∧ bufferIndex < bufferSize
  · simp only [if_pos more] at ran ⊢
    rcases read : readCluster medium bootSector buffer bufferSize cluster bufferIndex before with
      stop | ⟨index, middle⟩
    · simp [read] at ran
    · cases index with
      | none =>
          simp only [read] at ran ⊢
          cases ran
          exact .inl ⟨readCluster_cache read, fun _ => rfl⟩
      | some index =>
          simp only [read] at ran ⊢
          rcases found : middle.getFatEntry medium bootSector cluster with stop | ⟨next, later⟩
          · simp [found] at ran
          · simp only [found] at ran ⊢
            exact .inr ⟨index, next, middle, later, rfl, found, ran, fun _ => rfl⟩
  · simp only [if_neg more] at ran ⊢
    cases ran
    exact .inl ⟨rfl, fun _ => rfl⟩

theorem readClusters_fuel {fuel more : Nat} {outcome : Int × State} (enough : fuel ≤ more)
    (ran : readClusters medium bootSector buffer bufferSize fuel cluster bufferIndex before =
      .ok outcome) :
    readClusters medium bootSector buffer bufferSize more cluster bufferIndex before =
      .ok outcome := by
  induction fuel generalizing more cluster bufferIndex before with
  | zero => cases ran
  | succ fuel induction_hypothesis =>
      obtain ⟨more, rfl⟩ := Nat.exists_eq_succ_of_ne_zero (by omega : more ≠ 0)
      rcases readClusters_cases ran with ⟨-, stops⟩ | ⟨index, next, middle, later, -, -, rest, turn⟩
      · exact stops more
      · rw [Nat.succ_eq_add_one, turn more]
        exact induction_hypothesis (Nat.le_of_succ_le_succ enough) rest

theorem readClusters_cache {fuel : Nat} {outcome : Int × State}
    (reliable : ∀ call, medium.faults call = none)
    (ran : readClusters medium bootSector buffer bufferSize fuel cluster bufferIndex before =
      .ok outcome) :
    outcome.2.cache = before.cache ∨ outcome.2.cache.Mirrors medium.disk := by
  induction fuel generalizing cluster bufferIndex before with
  | zero => cases ran
  | succ fuel induction_hypothesis =>
      rcases readClusters_cases ran with ⟨kept, -⟩ | ⟨index, next, middle, later, read, found, rest, -⟩
      · exact .inl kept
      · rcases induction_hypothesis rest with kept | loaded
        · rw [kept, ← readCluster_cache read]
          exact State.getFatEntry_cache reliable found
        · exact .inr loaded

theorem fat16ReadFile_cache {fuel : Nat} {outcome : Int × State}
    (reliable : ∀ call, medium.faults call = none)
    (ran : fat16ReadFile medium bootSector buffer bufferSize fuel cluster before = .ok outcome) :
    outcome.2.cache = before.cache ∨ outcome.2.cache.Mirrors medium.disk := by
  unfold fat16ReadFile at ran
  by_cases zero : bootSector.bytesPerSector = 0
  · rw [if_pos zero] at ran
    cases ran
  · rw [if_neg zero] at ran
    exact readClusters_cache reliable ran

end

end Mackerel.Fat16
