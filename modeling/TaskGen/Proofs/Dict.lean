import Mathlib.Data.List.Induction
import Mathlib.Data.List.Nodup
import Mathlib.Data.List.Sort
import TaskGen.Dict

/-!
Maps as lists: what a look-up says about the pairs, and where an insertion takes place.  A map
can be restricted to some of its names, and is then made of the pairs with these names.
-/

namespace TaskGen
namespace Dict

variable {α : Type}

theorem mem_of_find? {d : Dict α} {key : String} {a : α} (h : find? d key = some a) :
    (key, a) ∈ d := by
  induction d with
  | nil => simp at h
  | cons p rest ih =>
    obtain ⟨k, b⟩ := p
    rw [find?_cons] at h
    by_cases hk : k = key
    · rw [if_pos hk] at h
      cases h
      subst hk
      exact List.mem_cons_self
    · rw [if_neg hk] at h
      exact List.mem_cons_of_mem _ (ih h)

theorem find?_eq_none_iff {d : Dict α} {key : String} : find? d key = none ↔ key ∉ keys d := by
  induction d with
  | nil => simp [keys]
  | cons p rest ih =>
    obtain ⟨k, b⟩ := p
    rw [find?_cons]
    by_cases hk : k = key
    · simp [hk, keys]
    · rw [if_neg hk, ih]
      have hk' : key ≠ k := fun h => hk h.symm
      simp [keys, hk']

theorem Ordered.nodup_keys {d : Dict α} (h : Ordered d) : (keys d).Nodup := by
  refine List.Pairwise.map Prod.fst (fun p q hlt heq => ?_) h
  rw [heq] at hlt
  exact String.lt_irrefl _ hlt

theorem mem_keys_iff {d : Dict α} {key : String} :
    key ∈ keys d ↔ ∃ a, find? d key = some a := by
  rw [← Option.ne_none_iff_exists', ne_eq, find?_eq_none_iff, not_not]

theorem contains_iff {d : Dict α} {key : String} : contains d key = true ↔ key ∈ keys d := by
  rw [contains, Option.isSome_iff_exists, mem_keys_iff]

theorem mem_keys_insert {d : Dict α} {key other : String} {value : α} :
    other ∈ keys (insert d key value) ↔ other = key ∨ other ∈ keys d := by
  rw [mem_keys_iff, mem_keys_iff, find?_insert]
  by_cases h : key = other
  · simp [h]
  · have h' : other ≠ key := fun heq => h heq.symm
    simp [h, h']

theorem mem_keys_foldl_insert {β : Type} (f : β → String) (g : β → α) (bs : List β) {d : Dict α}
    {key : String} : key ∈ keys (bs.foldl (fun d b => insert d (f b) (g b)) d) ↔
      key ∈ keys d ∨ key ∈ bs.map f := by
  induction bs generalizing d with
  | nil => simp
  | cons b bs ih =>
    rw [List.foldl_cons, ih, mem_keys_insert, List.map_cons, List.mem_cons, or_assoc,
      or_left_comm]

theorem Ordered.pairwise_keys {d : Dict α} (h : Ordered d) : (keys d).Pairwise (· < ·) :=
  List.pairwise_map.2 h

theorem find?_of_mem {d : Dict α} (h : (keys d).Nodup) {key : String} {a : α}
    (hmem : (key, a) ∈ d) : find? d key = some a := by
  induction d with
  | nil => simp at hmem
  | cons p rest ih =>
    obtain ⟨k, b⟩ := p
    rw [keys, List.map_cons, List.nodup_cons] at h
    rw [find?_cons]
    rcases List.mem_cons.1 hmem with heq | hrest
    · cases heq
      exact if_pos rfl
    · have hk : k ≠ key := by
        intro heq
        exact h.1 (List.mem_map.2 ⟨(key, a), hrest, heq.symm⟩)
      rw [if_neg hk]
      exact ih h.2 hrest

theorem mem_keys_filter {d : Dict α} (h : (keys d).Nodup) {p : String × α → Bool} {key : String} :
    key ∈ keys (d.filter p) ↔ ∃ a, find? d key = some a ∧ p (key, a) = true := by
  constructor
  · intro hkey
    obtain ⟨⟨k, a⟩, hmem, rfl⟩ := List.mem_map.1 hkey
    obtain ⟨hd, hp⟩ := List.mem_filter.1 hmem
    exact ⟨a, find?_of_mem h hd, hp⟩
  · rintro ⟨a, hfind, hp⟩
    exact List.mem_map.2 ⟨(key, a), List.mem_filter.2 ⟨mem_of_find? hfind, hp⟩, rfl⟩

theorem keys_mapValues {β : Type} (f : α → β) (d : Dict α) : keys (mapValues f d) = keys d := by
  rw [keys, mapValues, List.map_map]
  rfl

theorem find?_mapValues {β : Type} (f : α → β) (d : Dict α) (key : String) :
    find? (mapValues f d) key = (find? d key).map f := by
  induction d with
  | nil => rfl
  | cons p rest ih =>
    show (if p.1 = key then some (f p.2) else find? (mapValues f rest) key) = _
    rw [ih, find?_cons]
    split
    · rfl
    · rfl

/-- Two maps in order with the same content are equal as lists. -/
theorem Ordered.eq_of_find? {d e : Dict α} (hd : Ordered d) (he : Ordered e)
    (h : ∀ key, find? d key = find? e key) : d = e := by
  have hmem : ∀ p, p ∈ d ↔ p ∈ e := by
    rintro ⟨key, a⟩
    constructor
    · intro hp
      exact mem_of_find? ((h key).symm.trans (find?_of_mem hd.nodup_keys hp))
    · intro hp
      exact mem_of_find? ((h key).trans (find?_of_mem he.nodup_keys hp))
  have hirrefl : Std.Irrefl fun p q : String × α => p.1 < q.1 := ⟨fun p => String.lt_irrefl p.1⟩
  have hantisymm : Std.Antisymm fun p q : String × α => p.1 < q.1 :=
    ⟨fun p q hpq hqp => (String.lt_irrefl _ (String.lt_trans hpq hqp)).elim⟩
  exact hd.eq_of_mem_iff he hmem

theorem find?_erase_of_ne (d : Dict α) {key other : String} (h : other ≠ key) :
    find? (erase d key) other = find? d other := by
  induction d with
  | nil => rfl
  | cons p rest ih =>
    unfold erase at ih ⊢
    by_cases hp : p.1 = key
    · have hne : ¬ p.1 = other := fun heq => h (heq.symm.trans hp)
      rw [List.filter_cons_of_neg (by simpa using hp), ih, find?_cons, if_neg hne]
    · rw [List.filter_cons_of_pos (by simpa using hp), find?_cons, find?_cons, ih]

theorem extend_cons (d : Dict α) (k : String) (a : α) (extra : Dict α) :
    extend d ((k, a) :: extra) = extend (insert d k a) extra := rfl

theorem find?_extend {d extra : Dict α} (h : (keys extra).Nodup) (key : String) :
    find? (extend d extra) key = (find? extra key).or (find? d key) := by
  induction extra generalizing d with
  | nil => rfl
  | cons p extra ih =>
    obtain ⟨k, a⟩ := p
    rw [keys, List.map_cons, List.nodup_cons] at h
    rw [extend_cons, ih h.2, find?_insert, find?_cons]
    by_cases hk : k = key
    · subst hk
      have hnone : find? extra k = none := find?_eq_none_iff.2 h.1
      simp [hnone]
    · simp [hk]

theorem find?_ofList {pairs : List (String × α)} (h : (keys pairs).Nodup) (key : String) :
    find? (ofList pairs) key = find? pairs key :=
  (find?_extend h key).trans (Option.or_none ..)

theorem mem_keys_ofList {pairs : List (String × α)} {key : String} :
    key ∈ keys (ofList pairs) ↔ key ∈ keys pairs := by
  unfold ofList
  rw [mem_keys_foldl_insert]
  simp [empty, keys]

theorem find?_map_of_injective {β : Type} {ρ : String → String} (inj : Function.Injective ρ)
    (f : α → β) (d : Dict α) (key : String) :
    find? (d.map fun p => (ρ p.1, f p.2)) (ρ key) = (find? d key).map f := by
  induction d with
  | nil => rfl
  | cons p rest ih =>
    rw [List.map_cons, find?_cons, find?_cons, ih]
    by_cases h : p.1 = key
    · simp [h]
    · have hρ : ρ p.1 ≠ ρ key := fun heq => h (inj heq)
      simp [h, hρ]

/-- A new name goes between two others. -/
theorem insert_of_find?_none {d : Dict α} {key : String} (h : find? d key = none) :
    ∃ before after, d = before ++ after ∧
      ∀ value, insert d key value = before ++ (key, value) :: after := by
  induction d with
  | nil => exact ⟨[], [], rfl, fun value => rfl⟩
  | cons p rest ih =>
    obtain ⟨k, b⟩ := p
    rw [find?_cons] at h
    by_cases hk : k = key
    · rw [if_pos hk] at h
      cases h
    · rw [if_neg hk] at h
      by_cases hlt : key < k
      · exact ⟨[], (k, b) :: rest, rfl, fun value => by rw [insert, if_pos hlt]; rfl⟩
      · obtain ⟨before, after, hrest, hinsert⟩ := ih h
        refine ⟨(k, b) :: before, after, by rw [hrest]; rfl, fun value => ?_⟩
        rw [insert, if_neg hlt, if_neg hk, hinsert value]
        rfl

/-- A known name keeps its place. -/
theorem insert_of_find?_some {d : Dict α} (ordered : Ordered d) {key : String} {a : α}
    (h : find? d key = some a) :
    ∃ before after, d = before ++ (key, a) :: after ∧
      ∀ value, insert d key value = before ++ (key, value) :: after := by
  induction d with
  | nil => simp at h
  | cons p rest ih =>
    obtain ⟨k, b⟩ := p
    obtain ⟨hbelow, hrest⟩ := List.pairwise_cons.1 ordered
    rw [find?_cons] at h
    by_cases hk : k = key
    · rw [if_pos hk] at h
      cases h
      subst hk
      refine ⟨[], rest, rfl, fun value => ?_⟩
      rw [insert, if_neg (String.lt_irrefl _), if_pos rfl]
      rfl
    · rw [if_neg hk] at h
      have hlt : ¬ key < k := by
        intro hlt
        exact String.lt_irrefl _ (String.lt_trans hlt (hbelow _ (mem_of_find? h)))
      obtain ⟨before, after, heq, hinsert⟩ := ih hrest h
      refine ⟨(k, b) :: before, after, by rw [heq]; rfl, fun value => ?_⟩
      rw [insert, if_neg hlt, if_neg hk, hinsert value]
      rfl

/-! ### Lists of pairs as maps -/

def restrict (keep : String → Bool) (d : Dict α) : Dict α := d.filter fun p => keep p.1

section
variable {keep : String → Bool} {p : String × α}

theorem restrict_cons_of_pos (h : keep p.1 = true) (d : Dict α) :
    restrict keep (p :: d) = p :: restrict keep d := List.filter_cons_of_pos h

theorem restrict_cons_of_neg (h : ¬ keep p.1 = true) (d : Dict α) :
    restrict keep (p :: d) = restrict keep d := List.filter_cons_of_neg h

theorem Ordered.restrict {d : Dict α} (h : Ordered d) (keep : String → Bool) :
    Ordered (restrict keep d) := List.Pairwise.filter _ h

theorem find?_restrict (keep : String → Bool) (d : Dict α) (key : String) :
    find? (restrict keep d) key = if keep key then find? d key else none := by
  induction d with
  | nil => simp [restrict]
  | cons p d ih =>
    by_cases hp : keep p.1 = true
    · rw [restrict_cons_of_pos hp, find?_cons, find?_cons, ih]
      by_cases hkey : p.1 = key
      · subst hkey
        simp [hp]
      · simp [hkey]
    · rw [restrict_cons_of_neg hp, find?_cons, ih]
      by_cases hkey : p.1 = key
      · subst hkey
        simp [hp]
      · simp [hkey]

theorem restrict_mapValues {β : Type} (keep : String → Bool) (f : α → β) (d : Dict α) :
    restrict keep (mapValues f d) = mapValues f (restrict keep d) := List.filter_map

end

theorem ofList_concat (pairs : List (String × α)) (p : String × α) :
    ofList (pairs ++ [p]) = insert (ofList pairs) p.1 p.2 := List.foldl_concat _ _ _ _

/-- The last pair with a name counts. -/
theorem find?_ofList_eq_find?_reverse (pairs : List (String × α)) (key : String) :
    find? (ofList pairs) key = find? pairs.reverse key := by
  induction pairs using List.reverseRecOn with
  | nil => rfl
  | append_singleton pairs p ih =>
    rw [ofList_concat, find?_insert, ih, List.reverse_append]
    exact (find?_cons p.1 key p.2 pairs.reverse).symm

theorem find?_ofList_restrict (keep : String → Bool) (pairs : List (String × α)) (key : String) :
    find? (ofList (restrict keep pairs)) key =
      if keep key then find? (ofList pairs) key else none := by
  have hreverse : (restrict keep pairs).reverse = restrict keep pairs.reverse :=
    List.filter_reverse.symm
  rw [find?_ofList_eq_find?_reverse, find?_ofList_eq_find?_reverse, hreverse, find?_restrict]

theorem insert_mapValues {β : Type} (f : α → β) (d : Dict α) (key : String) (value : α) :
    insert (mapValues f d) key (f value) = mapValues f (insert d key value) := by
  induction d with
  | nil => rfl
  | cons p rest ih =>
    obtain ⟨k, a⟩ := p
    by_cases hlt : key < k
    · simp [mapValues, insert, hlt]
    · by_cases heq : k = key
      · simp [mapValues, insert, heq]
      · simp only [mapValues, List.map_cons, insert, if_neg hlt, if_neg heq] at ih ⊢
        rw [ih]

theorem ofList_mapValues {β : Type} (f : α → β) (pairs : List (String × α)) :
    ofList (mapValues f pairs) = mapValues f (ofList pairs) := by
  induction pairs using List.reverseRecOn with
  | nil => rfl
  | append_singleton pairs p ih =>
    rw [mapValues, List.map_append, List.map_singleton, ofList_concat, ofList_concat,
      ← insert_mapValues, ← ih]
    rfl

def update (key : String) (f : α → α) (d : Dict α) : Dict α :=
  d.map fun p => (p.1, if p.1 = key then f p.2 else p.2)

theorem find?_update (key : String) (f : α → α) (d : Dict α) (name : String) :
    find? (update key f d) name = (find? d name).map (if name = key then f else fun a => a) := by
  induction d with
  | nil => rfl
  | cons p d ih =>
    show (if p.1 = name then some _ else find? (update key f d) name) = _
    rw [ih, find?_cons]
    by_cases hname : p.1 = name
    · subst hname
      by_cases hkey : p.1 = key
      · simp [hkey]
      · simp [hkey]
    · simp [hname]

theorem Ordered.update {d : Dict α} (h : Ordered d) (key : String) (f : α → α) :
    Ordered (update key f d) := List.pairwise_map.2 h

theorem Ordered.ofList_eq {d : Dict α} (h : Ordered d) : ofList d = d :=
  (ordered_ofList d).eq_of_find? h (find?_ofList h.nodup_keys)

end Dict
end TaskGen
