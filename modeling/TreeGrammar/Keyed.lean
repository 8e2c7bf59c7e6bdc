/-
# TreeGrammar.Keyed -- association lists in the order of first use

A keyed list holds at most one value for each key.  Putting a value under a key
that is there replaces the value in its place; a new key goes to the end.
-/

set_option autoImplicit false

namespace TreeGrammar.Keyed

universe u v

variable {κ : Type u} {β : Type v} [DecidableEq κ]

/-- The list with the value under the key. -/
def put (key : κ) (value : β) : List (κ × β) → List (κ × β)
  | [] => [(key, value)]
  | entry :: rest =>
      if entry.1 = key then (key, value) :: rest else entry :: put key value rest

/-- The value under the key. -/
def get? (key : κ) : List (κ × β) → Option β
  | [] => none
  | entry :: rest => if entry.1 = key then some entry.2 else get? key rest

/-- The entries put one after the other: the first use fixes the place, the last the value. -/
def ofList (entries : List (κ × β)) : List (κ × β) :=
  entries.foldl (fun list entry => put entry.1 entry.2 list) []

theorem put_of_not_mem {key : κ} {list : List (κ × β)} (absent : key ∉ list.map Prod.fst)
    (value : β) : put key value list = list ++ [(key, value)] := by
  induction list with
  | nil => rfl
  | cons entry rest ih =>
      simp only [List.map_cons, List.mem_cons, not_or] at absent
      rw [put, if_neg (Ne.symm absent.1), ih absent.2, List.cons_append]

theorem get?_put (key other : κ) (value : β) (list : List (κ × β)) :
    get? other (put key value list) = if key = other then some value else get? other list := by
  induction list with
  | nil => simp [put, get?]
  | cons entry rest ih =>
      by_cases same : entry.1 = key
      · by_cases asked : key = other <;> simp [put, get?, same, asked]
      · rw [put, if_neg same, get?, get?, ih]
        by_cases asked : entry.1 = other
        · have : key ≠ other := fun equal => same (asked.trans equal.symm)
          simp [asked, this]
        · simp [asked]

theorem get?_eq_none {key : κ} {list : List (κ × β)} (absent : ∀ entry ∈ list, entry.1 ≠ key) :
    get? key list = none := by
  induction list with
  | nil => rfl
  | cons entry rest ih =>
      rw [get?, if_neg (absent entry (by simp))]
      exact ih fun other member => absent other (List.mem_cons_of_mem _ member)

theorem get?_ne_none_of_mem {entry : κ × β} {list : List (κ × β)} (member : entry ∈ list) :
    get? entry.1 list ≠ none := by
  induction list with
  | nil => exact absurd member List.not_mem_nil
  | cons first rest ih =>
      rw [get?]
      split
      · simp
      · next other =>
        rcases List.mem_cons.1 member with rfl | later
        · exact absurd rfl other
        · exact ih later

theorem mem_of_get? {key : κ} {value : β} {list : List (κ × β)}
    (found : get? key list = some value) : (key, value) ∈ list := by
  induction list with
  | nil => cases found
  | cons entry rest ih =>
      rw [get?] at found
      split at found
      · next same => exact List.mem_cons.2 (.inl (by rw [← same, ← Option.some.inj found]))
      · exact List.mem_cons_of_mem _ (ih found)

theorem get?_map {γ : Type v} (change : β → γ) (key : κ) (list : List (κ × β)) :
    get? key (list.map fun entry => (entry.1, change entry.2)) = (get? key list).map change := by
  induction list with
  | nil => rfl
  | cons entry rest ih =>
      rw [List.map_cons, get?, get?, ih]
      split <;> rfl

/-- Where no key is used twice, the order of the entries does not matter. -/
theorem get?_perm {list other : List (κ × β)} (perm : list.Perm other)
    (distinct : (list.map Prod.fst).Nodup) (key : κ) : get? key list = get? key other := by
  induction perm with
  | nil => rfl
  | cons entry _ ih =>
      rw [get?, get?, ih (List.nodup_cons.1 distinct).2]
  | swap first second rest =>
      simp only [List.map_cons, List.nodup_cons, List.mem_cons, not_or] at distinct
      simp only [get?]
      split
      · next same => rw [if_neg fun equal => distinct.1.1 (same.trans equal.symm)]
      · rfl
  | trans before _ ih later =>
      exact (ih distinct).trans (later ((before.map Prod.fst).nodup_iff.1 distinct))

theorem get?_filter_ne (key other : κ) (list : List (κ × β)) :
    get? other (list.filter (·.1 ≠ key)) = if other = key then none else get? other list := by
  induction list with
  | nil => simp [get?]
  | cons entry rest ih =>
      by_cases erased : entry.1 = key
      · rw [List.filter_cons_of_neg (by simp [erased]), ih]
        by_cases asked : other = key
        · simp [asked]
        · have : entry.1 ≠ other := fun same => asked (same.symm.trans erased)
          simp [asked, get?, this]
      · rw [List.filter_cons_of_pos (by simp [erased]), get?, ih, get?]
        by_cases found : entry.1 = other
        · have : other ≠ key := fun same => erased (found.trans same)
          simp [found, this]
        · simp [found]

theorem mem_keys_put (key other : κ) (value : β) (list : List (κ × β)) :
    other ∈ (put key value list).map Prod.fst ↔ other = key ∨ other ∈ list.map Prod.fst := by
  induction list with
  | nil => simp [put]
  | cons entry rest ih =>
      by_cases same : entry.1 = key
      · simp [put, same]
      · simp only [put, same, if_false, List.map_cons, List.mem_cons, ih]
        constructor
        · rintro (here | new | there) <;> simp_all
        · rintro (new | here | there) <;> simp_all

theorem nodup_keys_put (key : κ) (value : β) {list : List (κ × β)}
    (distinct : (list.map Prod.fst).Nodup) : ((put key value list).map Prod.fst).Nodup := by
  induction list with
  | nil => simp [put]
  | cons entry rest ih =>
      simp only [List.map_cons, List.nodup_cons] at distinct
      by_cases same : entry.1 = key
      · rw [put, if_pos same, List.map_cons, List.nodup_cons]
        exact same ▸ distinct
      · simp only [put, same, if_false, List.map_cons, List.nodup_cons]
        refine ⟨fun member => ?_, ih distinct.2⟩
        rcases (mem_keys_put key entry.1 value rest).1 member with equal | there
        · exact same equal
        · exact distinct.1 there

theorem nodup_keys_ofList (entries : List (κ × β)) : ((ofList entries).map Prod.fst).Nodup := by
  have onward : ∀ list : List (κ × β), (list.map Prod.fst).Nodup →
      ((entries.foldl (fun list entry => put entry.1 entry.2 list) list).map Prod.fst).Nodup := by
    induction entries with
    | nil => exact fun list distinct => distinct
    | cons entry rest ih => exact fun list distinct => ih _ (nodup_keys_put _ _ distinct)
  exact onward [] List.nodup_nil

theorem foldl_put_of_nodup {entries list : List (κ × β)}
    (distinct : ((list ++ entries).map Prod.fst).Nodup) :
    entries.foldl (fun list entry => put entry.1 entry.2 list) list = list ++ entries := by
  induction entries generalizing list with
  | nil => simp
  | cons entry rest ih =>
      have absent : entry.1 ∉ list.map Prod.fst := by
        rw [List.map_append, List.map_cons, List.nodup_append] at distinct
        exact fun member => distinct.2.2 _ member _ List.mem_cons_self rfl
      rw [List.foldl_cons, put_of_not_mem absent, ih (by simpa using distinct)]
      simp

/-- Nothing is replaced exactly where no key is used twice. -/
theorem ofList_eq_self_iff {entries : List (κ × β)} :
    ofList entries = entries ↔ (entries.map Prod.fst).Nodup := by
  constructor
  · intro same
    rw [← same]
    exact nodup_keys_ofList entries
  · exact fun distinct => foldl_put_of_nodup distinct

end TreeGrammar.Keyed
