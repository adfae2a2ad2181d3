import Mathlib.Data.Finset.Basic
import Mathlib.Data.Rat.Defs

/-! JSON values up to the order in which an object names its keys: two objects are equal where
they have the same keys and equal fields. A hash is kept as itself, not as its text.
-/

set_option autoImplicit false

namespace C3po.Stored

inductive Json (Digest : Type) : Type where
  | null
  | bool (value : Bool)
  | integer (value : Int)
  | number (value : ℚ)
  | text (value : String)
  | digest (value : Digest)
  | array (size : ℕ) (items : Fin size → Json Digest)
  | object (keys : Finset String) (fields : {key // key ∈ keys} → Json Digest)

namespace Json
variable {Digest : Type}

def of (keys : Finset String) (field : String → Json Digest) : Json Digest := .object keys fun key => field key

def get? : Json Digest → String → Option (Json Digest)
  | .object keys fields, key => if held : key ∈ keys then some (fields ⟨key, held⟩) else none
  | _, _ => none

/-- What `get` answers of a mapping: null where the key is absent. -/
def get (json : Json Digest) (key : String) : Json Digest := (json.get? key).getD .null

def isObject : Json Digest → Bool
  | .object .. => true
  | _ => false

@[simp] theorem get?_of (keys : Finset String) (field : String → Json Digest) (key : String) :
    (of keys field).get? key = if key ∈ keys then some (field key) else none := by
  change (if held : key ∈ keys then some (field key) else none) = _
  split <;> rfl

@[simp] theorem isObject_of (keys : Finset String) (field : String → Json Digest) : (of keys field).isObject = true := rfl

/-- A literal. -/
def entries (named : List (String × Json Digest)) : Json Digest :=
  of (named.map Prod.fst).toFinset fun key => ((named.find? fun entry => entry.1 = key).map Prod.snd).getD .null

theorem get?_entries (named : List (String × Json Digest)) (key : String) :
    (entries named).get? key = (named.find? fun entry => entry.1 = key).map Prod.snd := by
  unfold entries
  rw [get?_of]
  cases found : named.find? fun entry => entry.1 = key with
  | none =>
    rw [if_neg]
    · rfl
    · intro held
      obtain ⟨entry, mem, same⟩ := List.mem_map.mp (List.mem_toFinset.mp held)
      exact absurd same (by simpa using List.find?_eq_none.mp found entry mem)
  | some entry =>
    have same : entry.1 = key := by simpa using List.find?_some found
    rw [if_pos]
    · rfl
    · exact List.mem_toFinset.mpr (List.mem_map.mpr ⟨entry, List.mem_of_find?_eq_some found, same⟩)

@[simp] theorem isObject_entries (named : List (String × Json Digest)) : (entries named).isObject = true := rfl

def keys : Json Digest → Finset String
  | .object keys _ => keys
  | _ => ∅

theorem mem_keys {json : Json Digest} {key : String} : key ∈ json.keys ↔ (json.get? key).isSome := by
  cases json with
  | object keys fields =>
    change key ∈ keys ↔ (if held : key ∈ keys then some (fields ⟨key, held⟩) else none).isSome
    split <;> simp_all
  | _ => simp [keys, get?]

/-- The fields of the first, and of the second those it has not. -/
def merge (first second : Json Digest) : Json Digest :=
  of (first.keys ∪ second.keys) fun key => ((first.get? key).or (second.get? key)).getD .null

theorem get?_merge (first second : Json Digest) (key : String) :
    (first.merge second).get? key = (first.get? key).or (second.get? key) := by
  unfold merge
  rw [get?_of]
  have known : key ∈ first.keys ∪ second.keys ↔ ((first.get? key).or (second.get? key)).isSome := by
    rw [Finset.mem_union, mem_keys, mem_keys, Option.isSome_or, Bool.or_eq_true]
  cases read : (first.get? key).or (second.get? key) with
  | none => rw [if_neg (by rw [known, read]; exact Bool.false_ne_true)]
  | some value =>
    rw [if_pos (by rw [known, read]; rfl)]
    rfl

def erase (json : Json Digest) (key : String) : Json Digest := of (json.keys.erase key) json.get

theorem get?_erase_self (json : Json Digest) (key : String) : (json.erase key).get? key = none := by
  simp [erase]

def mapFields (change : Json Digest → Json Digest) (json : Json Digest) : Json Digest := of json.keys fun key => change (json.get key)

/-- One field put in the place of another. -/
def set (json : Json Digest) (key : String) (value : Json Digest) : Json Digest := (entries [(key, value)]).merge json

theorem get?_set (json : Json Digest) (key other : String) (value : Json Digest) :
    (json.set key value).get? other = if key = other then some value else json.get? other := by
  unfold set
  rw [get?_merge, get?_entries]
  by_cases same : key = other <;> simp [same]

end Json

end C3po.Stored
