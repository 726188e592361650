import Mackerel.Text.CStrings

namespace Mackerel.Bootloader

open Bytes CString

/-- What the configuration of a board adds to the monitor. -/
structure Features where
  netboot : Bool
  gpio : Bool
  rgb : Bool
  caches : Bool

/-- The commands, in the order in which `main` looks for them. -/
inductive Verb where
  | ymodem | boot | netboot | run | dump | peek | poke | mem8 | mem16 | mem32 | zero | gpio | rgb | info
  | help | cache | cinv | dtest
deriving DecidableEq

namespace Verb

def all : List Verb := [ymodem, boot, netboot, run, dump, peek, poke, mem8, mem16, mem32, zero, gpio, rgb, info,
  help, cache, cinv, dtest]

/-- The second and the third argument of `strncmp`. -/
def key : Verb → List Byte × Nat
  | ymodem => (chars ['y', 'm', 'o', 'd', 'e', 'm'], 6)
  | boot => (chars ['b', 'o', 'o', 't'], 4)
  | netboot => (chars ['n', 'e', 't', 'b', 'o', 'o', 't'], 7)
  | run => (chars ['r', 'u', 'n'], 3)
  | dump => (chars ['d', 'u', 'm', 'p'], 4)
  | peek => (chars ['p', 'e', 'e', 'k'], 4)
  | poke => (chars ['p', 'o', 'k', 'e'], 4)
  | mem8 => (chars ['m', 'e', 'm', '8'], 4)
  | mem16 => (chars ['m', 'e', 'm', '1', '6'], 4)
  | mem32 => (chars ['m', 'e', 'm', '3', '2'], 5)
  | zero => (chars ['z', 'e', 'r', 'o'], 4)
  | gpio => (chars ['g', 'p', 'i', 'o'], 4)
  | rgb => (chars ['r', 'g', 'b'], 3)
  | info => (chars ['i', 'n', 'f', 'o'], 4)
  | help => (chars ['h', 'e', 'l', 'p'], 4)
  | cache => (chars ['c', 'a', 'c', 'h', 'e'], 5)
  | cinv => (chars ['c', 'i', 'n', 'v'], 4)
  | dtest => (chars ['d', 't', 'e', 's', 't'], 5)

def name (verb : Verb) : List Byte := verb.key.1

def selects (verb : Verb) (text : List Byte) : Bool := startsWith verb.key.1 verb.key.2 text

end Verb

def Features.has (features : Features) : Verb → Bool
  | .netboot => features.netboot
  | .gpio => features.gpio
  | .rgb => features.rgb
  | .cache | .cinv | .dtest => features.caches
  | _ => true

/-- The first branch of `main` that is taken. -/
def dispatch (features : Features) (text : List Byte) : Option Verb :=
  Verb.all.find? fun verb => features.has verb && verb.selects text

/-- The tokens behind the first one. -/
structure Params where
  first : Option (List Byte)
  second : Option (List Byte)
  third : Option (List Byte)

/-- `strtok(buffer, " ")`, and three times `strtok(NULL, " ")`. -/
def params (text : List Byte) : Params :=
  let verb := strtok text
  let first := strtok verb.2
  let second := strtok first.2
  ⟨first.1, second.1, (strtok second.2).1⟩

/-- The handlers with their arguments. -/
inductive Call where
  | ymodem (addr : BitVec 32)
  | boot
  | netboot
  | run (addr : BitVec 32)
  | memdump (addr : BitVec 32) (bytes : Nat)
  | peek (addr : BitVec 32)
  | poke (addr : BitVec 32) (val : Byte)
  | mem8 (start size : BitVec 32)
  | mem16 (start size : BitVec 32)
  | mem32 (start size : BitVec 32)
  | zero (start size : BitVec 32)
  | gpio (arg1 arg2 arg3 : Option (List Byte))
  | rgb (r g b : Option (List Byte))
  | info
  | help
  | cache (sub : Option (List Byte))
  | cinv (sub : Option (List Byte))
  | dtest (addr size : BitVec 32)
  | notFound (text : List Byte)

section Parse

-- `null` is the text at address 0, which `strtoul` reads for a missing parameter.
variable (null : List Byte)

def number (param : Option (List Byte)) : BitVec 32 := strtoul 16 (param.getD null)

def Verb.call (params : Params) : Verb → Call
  | ymodem => .ymodem (number null params.first)
  | boot => .boot
  | netboot => .netboot
  | run => .run (number null params.first)
  | dump => .memdump (number null params.first) 256
  | peek => .peek (number null params.first)
  | poke => .poke (number null params.first) ((number null params.second).setWidth 8)
  | mem8 => .mem8 (number null params.first) (number null params.second)
  | mem16 => .mem16 (number null params.first) (number null params.second)
  | mem32 => .mem32 (number null params.first) (number null params.second)
  | zero => .zero (number null params.first) (number null params.second)
  | gpio => .gpio params.first params.second params.third
  | rgb => .rgb params.first params.second params.third
  | info => .info
  | help => .help
  | cache => .cache params.first
  | cinv => .cinv params.first
  | dtest => .dtest (number [] params.first) (number [] params.second)

def parse (features : Features) (text : List Byte) : Call :=
  match dispatch features text with
  | some verb => verb.call null (params text)
  | none => .notFound text

end Parse

theorem Verb.mem_all (verb : Verb) : verb ∈ Verb.all := by cases verb <;> simp [Verb.all]

theorem Verb.key_length (verb : Verb) : verb.key.2 ≤ verb.key.1.length := by cases verb <;> simp [Verb.key, chars]

theorem Verb.name_whole (verb : Verb) : ∀ c ∈ verb.name, c ≠ 0x20 := by
  have table : ∀ verb ∈ Verb.all, ∀ c ∈ verb.name, c ≠ 0x20 := by decide +kernel
  exact table verb verb.mem_all

theorem Verb.keys_differ (first second : Verb) (same : first.key.1.take (min first.key.2 second.key.2) =
    second.key.1.take (min first.key.2 second.key.2)) : first = second := by
  have table : ∀ first ∈ Verb.all, ∀ second ∈ Verb.all, first.key.1.take (min first.key.2 second.key.2) =
      second.key.1.take (min first.key.2 second.key.2) → first = second := by decide +kernel
  exact table first first.mem_all second second.mem_all same

theorem Verb.selects_unique {first second : Verb} {text : List Byte} (one : first.selects text = true)
    (other : second.selects text = true) : first = second := by
  have one : text.take first.key.2 = first.key.1.take first.key.2 := of_decide_eq_true one
  have other : text.take second.key.2 = second.key.1.take second.key.2 := of_decide_eq_true other
  refine first.keys_differ second ?_
  have left := congrArg (List.take (min first.key.2 second.key.2)) one
  have right := congrArg (List.take (min first.key.2 second.key.2)) other
  simp only [List.take_take] at left right
  rw [Nat.min_eq_left (Nat.min_le_left _ _)] at left
  rw [Nat.min_eq_left (Nat.min_le_right _ _)] at right
  exact left.symm.trans right

variable {features : Features} {text : List Byte} {verb : Verb}

/-- The order of the branches does not matter. -/
theorem dispatch_iff : dispatch features text = some verb ↔ features.has verb = true ∧ verb.selects text = true := by
  constructor
  · intro found
    have taken := List.find?_some found
    simpa using taken
  · rintro ⟨has, selects⟩
    have some : (dispatch features text).isSome = true := by
      rw [dispatch, List.find?_isSome]
      exact ⟨verb, verb.mem_all, by simp [has, selects]⟩
    obtain ⟨first, found⟩ := Option.isSome_iff_exists.mp some
    have taken := List.find?_some found
    have selected : first.selects text = true := by
      simp only [Bool.and_eq_true] at taken
      exact taken.2
    rw [found, Verb.selects_unique selected selects]

theorem selects_name (verb : Verb) (rest : List Byte) : verb.selects (verb.name ++ rest) = true := by
  have short := verb.key_length
  rw [Verb.selects, startsWith, Verb.name, List.take_append_of_le_length short]
  exact decide_eq_true rfl

/-- The first three words. -/
def wordParams (words : List Word) : Params := ⟨words[0]?.map Word.text, words[1]?.map Word.text, words[2]?.map Word.text⟩

theorem strtok_tail (words : List Word) :
    strtok (phrase words).tail = (words.head?.map Word.text, (phrase words.tail).tail) := by
  cases words with
  | nil => rfl
  | cons word words => exact strtok_phrase word words

theorem params_line (verb : Verb) {suffix : List Byte} (whole : ∀ c ∈ suffix, c ≠ 0x20) (words : List Word) :
    params (verb.name ++ suffix ++ phrase words) = wordParams words := by
  have some : verb.name ++ suffix ≠ [] := by cases verb <;> simp [Verb.name, Verb.key, chars]
  have name : ∀ c ∈ verb.name ++ suffix, c ≠ 0x20 := by
    rw [List.forall_mem_append]
    exact ⟨verb.name_whole, whole⟩
  have first := @strtok_word 0 (verb.name ++ suffix) (phrase words) some name (phrase_ends words)
  rw [List.replicate_zero, List.nil_append] at first
  rw [params, first]
  simp only [strtok_tail, wordParams, List.head?_eq_getElem?, List.getElem?_tail]

/-- A command is found by its name, whatever is behind the name, and its parameters are the words
    of the line; no other command is taken for it. -/
theorem monitor_commands_found (features : Features) (null : List Byte) :
    (∀ text verb, dispatch features text = some verb ↔ features.has verb = true ∧ verb.selects text = true) ∧
    (∀ verb suffix words, features.has verb = true → (∀ c ∈ suffix, c ≠ 0x20) →
      parse null features (verb.name ++ suffix ++ phrase words) = verb.call null (wordParams words)) := by
  refine ⟨fun text verb => dispatch_iff, fun verb suffix words has whole => ?_⟩
  have found : dispatch features (verb.name ++ suffix ++ phrase words) = some verb := by
    rw [List.append_assoc]
    exact dispatch_iff.mpr ⟨has, selects_name verb _⟩
  rw [parse, found, params_line verb whole]

def noFeatures : Features := { netboot := false, gpio := false, rgb := false, caches := false }

/-- `400`, and `5A` behind two spaces. -/
def address : Word where
  spaces := 0
  text := chars ['4', '0', '0']
  some := by decide
  whole := by decide

def value : Word where
  spaces := 1
  text := chars ['5', 'A']
  some := by decide
  whole := by decide

theorem poke_line_found : dispatch noFeatures (chars ['p', 'o', 'k', 'e']) = some .poke ∧
    parse [] noFeatures (chars ['p', 'o', 'k', 'e', ' ', '4', '0', '0', ' ', ' ', '5', 'A']) = .poke 0x400 0x5A :=
  ⟨((monitor_commands_found noFeatures []).1 _ _).mpr ⟨rfl, by decide⟩,
    ((monitor_commands_found noFeatures []).2 .poke [] [address, value] rfl (by simp)).trans rfl⟩

end Mackerel.Bootloader
