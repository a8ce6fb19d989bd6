/-!
# Tables

A finite map that keeps its keys in the order in which they first came. `find?_put` says what a
table holds after a key was given a value, `find?_erase` after a key was taken out.
-/

namespace Shipyard

structure Table (κ ν : Type) where
  entries : List (κ × ν)
deriving Repr

namespace Table

variable {κ ν : Type}

def empty : Table κ ν := ⟨[]⟩

def size (t : Table κ ν) : Nat := t.entries.length

def keys (t : Table κ ν) : List κ := t.entries.map Prod.fst

def values (t : Table κ ν) : List ν := t.entries.map Prod.snd

variable [DecidableEq κ]

def findIn (k : κ) : List (κ × ν) → Option ν
  | [] => none
  | (k', v) :: rest => if k' = k then some v else findIn k rest

def putIn (k : κ) (v : ν) : List (κ × ν) → List (κ × ν)
  | [] => [(k, v)]
  | (k', v') :: rest => if k' = k then (k, v) :: rest else (k', v') :: putIn k v rest

def find? (t : Table κ ν) (k : κ) : Option ν := findIn k t.entries

/-- A key that was there keeps its place. -/
def put (t : Table κ ν) (k : κ) (v : ν) : Table κ ν := ⟨putIn k v t.entries⟩

def erase (t : Table κ ν) (k : κ) : Table κ ν := ⟨t.entries.filter fun e => e.1 ≠ k⟩

theorem findIn_putIn (k j : κ) (v : ν) (es : List (κ × ν)) :
    findIn j (putIn k v es) = if k = j then some v else findIn j es := by
  induction es with
  | nil => simp [putIn, findIn]
  | cons e rest ih =>
    obtain ⟨k', v'⟩ := e
    by_cases h : k' = k
    · subst h
      by_cases hj : k' = j <;> simp [putIn, findIn, hj]
    · by_cases hj : k' = j
      · subst hj
        simp [putIn, findIn, h, Ne.symm h]
      · simp [putIn, findIn, h, hj, ih]

@[simp] theorem find?_empty (j : κ) : (empty : Table κ ν).find? j = none := rfl

theorem find?_put (t : Table κ ν) (k j : κ) (v : ν) :
    (t.put k v).find? j = if k = j then some v else t.find? j :=
  findIn_putIn k j v t.entries

@[simp] theorem find?_put_self (t : Table κ ν) (k : κ) (v : ν) : (t.put k v).find? k = some v := by
  simp [find?_put]

theorem find?_erase (t : Table κ ν) (k j : κ) :
    (t.erase k).find? j = if k = j then none else t.find? j := by
  simp only [find?, erase]
  induction t.entries with
  | nil => simp [findIn]
  | cons e rest ih =>
    obtain ⟨k', v'⟩ := e
    by_cases h : k' = k
    · subst h
      by_cases hj : k' = j <;> simp_all [findIn]
    · by_cases hj : k' = j
      · subst hj
        simp_all [findIn, Ne.symm h]
      · simp_all [findIn]

end Table
end Shipyard
