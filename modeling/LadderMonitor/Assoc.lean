namespace LadderMonitor.Assoc

variable {κ α : Type} [DecidableEq κ]

def get? (key : κ) : List (κ × α) → Option α
  | [] => none
  | (k, v) :: rest => if k = key then some v else get? key rest

theorem mem_of_get? {key : κ} {value : α} {table : List (κ × α)} (h : get? key table = some value) :
    (key, value) ∈ table := by
  induction table with
  | nil => cases h
  | cons entry rest ih =>
    rw [get?] at h
    split at h
    · rename_i heq
      obtain rfl := Option.some.inj h
      rw [← heq]
      exact List.mem_cons_self
    · exact List.mem_cons_of_mem _ (ih h)

/-- Puts a value under a key: in place if the key is present, at the end otherwise. -/
def set (key : κ) (value : α) : List (κ × α) → List (κ × α)
  | [] => [(key, value)]
  | (k, v) :: rest => if k = key then (k, value) :: rest else (k, v) :: set key value rest

/-- Puts a value under a key that is absent; a key that is present keeps its value. -/
def setAbsent (key : κ) (value : α) (table : List (κ × α)) : List (κ × α) :=
  match get? key table with
  | some _ => table
  | none => table ++ [(key, value)]

def erase (key : κ) (table : List (κ × α)) : List (κ × α) :=
  table.filter fun entry => entry.1 ≠ key

end LadderMonitor.Assoc
