/-!
Insertion-ordered tables: lists of keys with values, where keys are compared by `==`. Storing under
a key that is present keeps the key's place and replaces its value; a new key goes to the end.
-/

namespace EntityApi.Entries

variable {κ α β : Type}

/-- No key of the table equals a later one. -/
def Distinct [BEq κ] (es : List (κ × α)) : Prop :=
  es.Pairwise fun a b => (a.1 == b.1) = false

def keys (es : List (κ × α)) : List κ := es.map Prod.fst

def values (es : List (κ × α)) : List α := es.map Prod.snd

variable [BEq κ]

def get? : List (κ × α) → κ → Option α
  | [], _ => none
  | (k, a) :: es, key => if k == key then some a else get? es key

def has (es : List (κ × α)) (key : κ) : Bool := (get? es key).isSome

def put : List (κ × α) → κ → α → List (κ × α)
  | [], key, a => [(key, a)]
  | (k, b) :: es, key, a => if k == key then (k, a) :: es else (k, b) :: put es key a

/-- Stores every entry of `later`, in order, into `base`. -/
def merge (base later : List (κ × α)) : List (κ × α) :=
  later.foldl (fun es e => put es e.1 e.2) base

/-- Stores the entries of each of the `tables`, in turn, into `base`. -/
def mergeAll (base : List (κ × α)) (tables : List (List (κ × α))) : List (κ × α) :=
  tables.foldl merge base

/-- The table of a list of pairs: a repeated key keeps its first place and takes its last value. -/
def ofList (pairs : List (κ × α)) : List (κ × α) := merge [] pairs

/-- Takes the entry of the key out. -/
def remove (es : List (κ × α)) (key : κ) : List (κ × α) := es.filter fun e => !(e.1 == key)

/-! ## Laws -/

@[simp] theorem get?_nil (key : κ) : get? ([] : List (κ × α)) key = none := rfl

@[simp] theorem merge_nil (base : List (κ × α)) : merge base [] = base := rfl

@[simp] theorem merge_cons (base : List (κ × α)) (e : κ × α) (later : List (κ × α)) :
    merge base (e :: later) = merge (put base e.1 e.2) later := rfl

theorem merge_append (base a b : List (κ × α)) : merge base (a ++ b) = merge (merge base a) b :=
  List.foldl_append

theorem get?_put [EquivBEq κ] (es : List (κ × α)) (key other : κ) (a : α) :
    get? (put es key a) other = if key == other then some a else get? es other := by
  induction es with
  | nil => simp [put, get?]
  | cons e es ih =>
    obtain ⟨k, b⟩ := e
    simp only [put]
    split
    · rename_i h
      simp only [get?]
      rw [BEq.congr_left h]
      split <;> rfl
    · rename_i h
      simp only [get?, ih]
      split
      · rename_i hk
        rw [if_neg]
        intro hko
        exact h (BEq.trans hk (BEq.symm hko))
      · rfl

theorem keys_put_of_has (es : List (κ × α)) (key : κ) (a : α) (h : has es key = true) :
    keys (put es key a) = keys es := by
  induction es with
  | nil => simp [has] at h
  | cons e es ih =>
    obtain ⟨k, b⟩ := e
    simp only [put]
    split
    · rfl
    · rename_i hk
      have : has es key = true := by simpa [has, get?, hk] using h
      simpa [keys] using ih this

theorem put_of_not_has (es : List (κ × α)) (key : κ) (a : α) (h : has es key = false) :
    put es key a = es ++ [(key, a)] := by
  induction es with
  | nil => rfl
  | cons e es ih =>
    obtain ⟨k, b⟩ := e
    have hk : (k == key) = false := by
      cases hk : k == key with
      | false => rfl
      | true => simp [has, get?, hk] at h
    have : has es key = false := by simpa [has, get?, hk] using h
    simp [put, hk, ih this]

end EntityApi.Entries
