/-!
# Stores

Values by key, with a default for keys that have not been set.
-/

namespace Retune

/-- Key and value pairs; every key occurs once. -/
structure Store (κ ν : Type) where
  entries : List (κ × ν)

namespace Store
variable {κ ν : Type} [DecidableEq κ]

def empty : Store κ ν := ⟨[]⟩

def find? (k : κ) : List (κ × ν) → Option ν
  | [] => none
  | e :: es => if e.1 = k then some e.2 else find? k es

def get? (s : Store κ ν) (k : κ) : Option ν := find? k s.entries

def get (s : Store κ ν) (k : κ) (default : ν) : ν := (s.get? k).getD default

def put (k : κ) (v : ν) : List (κ × ν) → List (κ × ν)
  | [] => [(k, v)]
  | e :: es => if e.1 = k then (k, v) :: es else e :: put k v es

/-- Sets the value of a key, which keeps its place if it has one. -/
def set (s : Store κ ν) (k : κ) (v : ν) : Store κ ν := ⟨put k v s.entries⟩

def erase (s : Store κ ν) (k : κ) : Store κ ν := ⟨s.entries.filter fun e => e.1 ≠ k⟩

def setAll (s : Store κ ν) (vs : List (κ × ν)) : Store κ ν :=
  vs.foldl (fun s (k, v) => s.set k v) s

theorem find?_put (k k' : κ) (v : ν) (es : List (κ × ν)) :
    find? k' (put k v es) = if k = k' then some v else find? k' es := by
  induction es with
  | nil => rfl
  | cons e es ih =>
    by_cases h : e.1 = k
    · by_cases h' : k = k' <;> simp_all [put, find?]
    · by_cases h' : e.1 = k'
      · have hk : k ≠ k' := fun hk => h (h'.trans hk.symm)
        rw [if_neg hk, put, if_neg h, find?, find?, if_pos h', if_pos h']
      · rw [put, if_neg h, find?, find?, if_neg h', if_neg h', ih]

@[simp] theorem get?_empty (k : κ) : (empty : Store κ ν).get? k = none := rfl

theorem get?_set (s : Store κ ν) (k k' : κ) (v : ν) :
    (s.set k v).get? k' = if k = k' then some v else s.get? k' := find?_put k k' v s.entries

theorem get_set (s : Store κ ν) (k k' : κ) (v d : ν) :
    (s.set k v).get k' d = if k = k' then v else s.get k' d := by
  simp only [get, get?_set]
  split <;> rfl

theorem find?_filter (k k' : κ) (es : List (κ × ν)) :
    find? k' (es.filter fun e => e.1 ≠ k) = if k = k' then none else find? k' es := by
  induction es with
  | nil => simp [find?]
  | cons e es ih =>
    by_cases h : e.1 = k
    · by_cases h' : k = k' <;> simp_all [find?]
    · by_cases h' : e.1 = k'
      · have hk : k ≠ k' := fun hk => h (h'.trans hk.symm)
        simp [find?, h', hk, Ne.symm hk]
      · simp_all [find?]

theorem get?_erase (s : Store κ ν) (k k' : κ) :
    (s.erase k).get? k' = if k = k' then none else s.get? k' := find?_filter k k' s.entries

end Store

end Retune
