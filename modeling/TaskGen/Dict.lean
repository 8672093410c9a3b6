namespace TaskGen

/-- A finite map from names, as the list of its pairs.  Every operation keeps the
names in increasing order, so two maps with the same content are equal lists and
a listing of the map needs no sort.  The order on names is the one of their
characters, which is also the one of their UTF-8 bytes. -/
abbrev Dict (α : Type) := List (String × α)

namespace Dict

variable {α β : Type}

def empty : Dict α := []

def find? : Dict α → String → Option α
  | [], _ => none
  | (k, a) :: rest, key => if k = key then some a else find? rest key

/-- Add a pair in front of the first larger name, in place of an equal one. -/
def insert : Dict α → String → α → Dict α
  | [], key, value => [(key, value)]
  | (k, a) :: rest, key, value =>
    if key < k then (key, value) :: (k, a) :: rest
    else if k = key then (key, value) :: rest
    else (k, a) :: insert rest key value

def contains (d : Dict α) (key : String) : Bool := (find? d key).isSome

def keys (d : Dict α) : List String := d.map Prod.fst

def values (d : Dict α) : List α := d.map Prod.snd

/-- Of several pairs with one name the last is kept. -/
def ofList (pairs : List (String × α)) : Dict α :=
  pairs.foldl (fun d p => insert d p.1 p.2) empty

/-- Every pair of `extra` over those of `d`. -/
def extend (d extra : Dict α) : Dict α :=
  extra.foldl (fun d p => insert d p.1 p.2) d

def erase (d : Dict α) (key : String) : Dict α := d.filter (fun p => p.1 ≠ key)

def mapValues (f : α → β) (d : Dict α) : Dict β := d.map (fun p => (p.1, f p.2))

/-- The names increase strictly, so none occurs twice. -/
def Ordered (d : Dict α) : Prop := d.Pairwise (fun p q => p.1 < q.1)

@[simp] theorem find?_nil (key : String) : find? ([] : Dict α) key = none := rfl

theorem find?_cons (k key : String) (a : α) (rest : Dict α) :
    find? ((k, a) :: rest) key = if k = key then some a else find? rest key := rfl

@[simp] theorem find?_insert_self (d : Dict α) (key : String) (value : α) :
    find? (insert d key value) key = some value := by
  induction d with
  | nil => simp [insert, find?]
  | cons p rest ih =>
    obtain ⟨k, a⟩ := p
    by_cases hlt : key < k
    · simp [insert, hlt, find?]
    · by_cases heq : k = key
      · simp [insert, heq, find?]
      · simp [insert, hlt, heq, find?, ih]

theorem find?_insert_of_ne (d : Dict α) {key other : String} (value : α) (h : key ≠ other) :
    find? (insert d key value) other = find? d other := by
  induction d with
  | nil => simp [insert, find?, h]
  | cons p rest ih =>
    obtain ⟨k, a⟩ := p
    by_cases hlt : key < k
    · simp [insert, hlt, find?, h]
    · by_cases heq : k = key
      · subst heq
        simp [insert, find?, h]
      · simp [insert, hlt, heq, find?, ih]

theorem find?_insert (d : Dict α) (key other : String) (value : α) :
    find? (insert d key value) other = if key = other then some value else find? d other := by
  by_cases h : key = other
  · subst h; simp
  · simp [h, find?_insert_of_ne d value h]

theorem mem_of_mem_insert {d : Dict α} {key : String} {value : α} {p : String × α}
    (h : p ∈ insert d key value) : p = (key, value) ∨ p ∈ d := by
  induction d with
  | nil => simpa [insert] using h
  | cons q rest ih =>
    obtain ⟨k, a⟩ := q
    by_cases hlt : key < k
    · simpa [insert, hlt] using h
    · by_cases heq : k = key
      · rw [insert, if_neg hlt, if_pos heq, List.mem_cons] at h
        exact h.imp id (List.mem_cons_of_mem _)
      · rw [insert, if_neg hlt, if_neg heq, List.mem_cons] at h
        rcases h with h | h
        · exact .inr (h ▸ List.mem_cons_self ..)
        · exact (ih h).imp id (List.mem_cons_of_mem _)

theorem Ordered.nil : Ordered ([] : Dict α) := List.Pairwise.nil

theorem Ordered.insert {d : Dict α} (h : Ordered d) (key : String) (value : α) :
    Ordered (insert d key value) := by
  induction d with
  | nil => simp [Dict.insert, Ordered]
  | cons p rest ih =>
    obtain ⟨k, a⟩ := p
    obtain ⟨hk, hrest⟩ := List.pairwise_cons.1 h
    by_cases hlt : key < k
    · rw [Dict.insert, if_pos hlt]
      refine List.pairwise_cons.2 ⟨fun q hq => ?_, h⟩
      rcases List.mem_cons.1 hq with rfl | hq
      · exact hlt
      · exact String.lt_trans hlt (hk q hq)
    · by_cases heq : k = key
      · subst heq
        rw [Dict.insert, if_neg hlt, if_pos rfl]
        exact List.pairwise_cons.2 ⟨hk, hrest⟩
      · rw [Dict.insert, if_neg hlt, if_neg heq]
        refine List.pairwise_cons.2 ⟨fun q hq => ?_, ih hrest⟩
        rcases mem_of_mem_insert hq with rfl | hq
        · have hle : k ≤ key := String.not_lt.1 hlt
          exact String.not_le.1 fun hge => heq (String.le_antisymm hle hge)
        · exact hk q hq

theorem Ordered.foldl_insert {d : Dict α} (h : Ordered d) (pairs : List (String × α)) :
    Ordered (pairs.foldl (fun d p => Dict.insert d p.1 p.2) d) := by
  induction pairs generalizing d with
  | nil => exact h
  | cons p rest ih => exact ih (h.insert p.1 p.2)

theorem ordered_ofList (pairs : List (String × α)) : Ordered (ofList pairs) :=
  Ordered.nil.foldl_insert pairs

theorem Ordered.extend {d : Dict α} (h : Ordered d) (extra : Dict α) :
    Ordered (extend d extra) := h.foldl_insert extra

end Dict
end TaskGen
