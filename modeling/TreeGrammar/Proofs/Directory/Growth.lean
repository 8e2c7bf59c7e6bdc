/-
# TreeGrammar.Proofs.Directory.Growth -- trees with more directories

A path that can be followed leads to the same location wherever the directories are kept
(`Tree.Finds.keeps`), so a location may be named by a path while files come and go.

`Tree.Grown` says that a tree has nothing new but directories on the way of given paths.
Making a directory lets a tree grow by the path of that directory (`grown_of_makeDirectory`),
and growing twice is growing (`Grown.trans`).
-/
import TreeGrammar.Proofs.Directory.Sound

set_option autoImplicit false

namespace TreeGrammar

/-- A path on the way of another one has its first names. -/
theorem Path.mem_ancestors_iff {path above : Path} :
    above ∈ path :: path.ancestors ↔
      above.absolute = path.absolute ∧ above.parts <+: path.parts := by
  obtain ⟨absolute, parts⟩ := path
  obtain ⟨otherAbsolute, front⟩ := above
  simp only [ancestors, List.mem_cons, List.mem_reverse, List.mem_map, List.mem_range, mk.injEq]
  constructor
  · rintro (⟨rfl, rfl⟩ | ⟨count, -, rfl, rfl⟩)
    · exact ⟨rfl, List.prefix_rfl⟩
    · exact ⟨rfl, List.take_prefix count parts⟩
  · rintro ⟨rfl, isPrefix⟩
    rcases Nat.lt_or_eq_of_le isPrefix.length_le with shorter | same
    · exact .inr ⟨front.length, shorter, rfl, (List.prefix_iff_eq_take.1 isPrefix).symm⟩
    · exact .inl ⟨rfl, isPrefix.eq_of_length same⟩

namespace Tree

variable {tree after later : Tree} {path : Path} {paths : List Path} {here there : Location}

/-! ## Paths where directories are kept -/

/-- Where directories are kept, names lead to the same location. -/
theorem follow_keeps_place (sound : tree.Sound) (keeps : tree.Keeps after) {parts : List Text}
    (directory : tree.entryAt here = some .directory)
    (found : tree.follow here parts = .ok (tree.placeAt there)) :
    after.follow here parts = .ok (after.placeAt there) := by
  induction parts generalizing here with
  | nil =>
      have same : here = there := by
        cases stands : tree.entryAt there <;>
          simp only [follow, directory, placeAt, stands, Except.ok.injEq, reduceCtorEq,
            Place.taken.injEq] at found
        exact found.1
      subst same
      simp [follow, placeAt, keeps here directory]
  | cons name rest ih =>
      simp only [follow, directory, keeps here directory] at found ⊢
      split at found
      · next back =>
        rw [if_pos back]
        exact ih (sound.above (by simp [directory])) found
      · next notBack =>
        rw [if_neg notBack]
        split at found
        · exact absurd found (by simp)
        · next short =>
          rw [if_neg short]
          cases rest with
          | nil =>
              -- the last name leads to its place, whatever stands there
              have same : here ++ [name] = there := by
                cases stands : tree.entryAt (here ++ [name]) <;>
                  cases standsToo : tree.entryAt there <;>
                  simp [follow, placeAt, stands, standsToo] at found
                · exact found
                · exact found.1
              subst same
              cases stands : after.entryAt (here ++ [name]) <;> simp [follow, placeAt, stands]
          | cons next more =>
              simp only [reduceCtorEq, false_and, if_false] at found ⊢
              refine ih ?_ found
              rcases stands : tree.entryAt (here ++ [name]) with _ | _ | content
              · simp [follow, stands] at found
              · rfl
              · simp [follow, stands] at found

/-- Where directories are kept, a path leads to the same location. -/
theorem Finds.keeps (finds : tree.Finds path true there) (sound : tree.Sound)
    (keeps : tree.Keeps after) : after.Finds path true there := by
  unfold Finds resolve at *
  rw [if_pos rfl] at *
  split at finds
  · exact absurd finds (by simp)
  · next short =>
    rw [if_neg short]
    exact follow_keeps_place sound keeps tree.entryAt_root finds

/-- A path leads to one location only. -/
theorem Finds.unique {short : Bool} (finds : tree.Finds path true here)
    (findsToo : tree.Finds path short there) : here = there := by
  cases short with
  | false => exact absurd (finds.symm.trans findsToo) (by simp)
  | true =>
      have same : tree.placeAt here = tree.placeAt there :=
        Except.ok.inj (finds.symm.trans findsToo)
      unfold placeAt at same
      cases stands : tree.entryAt here <;> cases standsToo : tree.entryAt there <;>
        simp only [stands, standsToo, Place.free.injEq, Place.taken.injEq, reduceCtorEq] at same
      · exact same
      · exact same.1

/-- A path that leads to a location leads to the directory that its names lead to. -/
theorem Finds.eq_of_leads (finds : tree.Finds path true there)
    (leads : tree.Leads path.parts here) : there = here := by
  unfold Finds resolve at finds
  split at finds
  · exact absurd finds (by simp)
  · have same := leads.symm.trans finds
    unfold placeAt at same
    cases stands : tree.entryAt there <;> simp [stands] at same
    exact same.1.symm

theorem exists_finds_of_look {entry : Entry} (looked : tree.look path = .ok (some entry)) :
    ∃ there, tree.Finds path true there ∧ tree.entryAt there = some entry := by
  unfold look at looked
  split at looked <;> simp only [Except.ok.injEq, Option.some.injEq, reduceCtorEq] at looked
  next there other resolved =>
  subst looked
  have stands : tree.entryAt there = some other := by
    have followed := resolved
    unfold resolve at followed
    split at followed
    · exact absurd followed (by simp)
    · exact entryAt_of_follow followed
  exact ⟨there, by rw [Finds, resolved, placeAt, stands, if_pos rfl], stands⟩

/-! ## Growing -/

/-- Nothing has changed, but that directories have been made where nothing stood, each of them on
the way of one of the paths. -/
structure Grown (paths : List Path) (tree after : Tree) : Prop where
  kept : ∀ location entry, tree.entryAt location = some entry →
    after.entryAt location = some entry
  added : ∀ location entry, tree.entryAt location = none → after.entryAt location = some entry →
    entry = .directory ∧ ∃ path ∈ paths, after.Finds path true location

namespace Grown

theorem refl (paths : List Path) (tree : Tree) : Grown paths tree tree :=
  ⟨fun _ _ there => there, fun _ _ free there => absurd (free.symm.trans there) (by simp)⟩

theorem keeps (grown : Grown paths tree after) : tree.Keeps after :=
  fun location there => grown.kept location .directory there

theorem mono {more : List Path} (grown : Grown paths tree after) (within : paths ⊆ more) :
    Grown more tree after := by
  refine ⟨grown.kept, fun location entry free there => ?_⟩
  obtain ⟨made, path, member, finds⟩ := grown.added location entry free there
  exact ⟨made, path, within member, finds⟩

theorem trans (sound : after.Sound) (first : Grown paths tree after)
    (second : Grown paths after later) : Grown paths tree later := by
  refine ⟨fun location entry there => second.kept _ _ (first.kept _ _ there), ?_⟩
  intro location entry free there
  cases between : after.entryAt location with
  | none => exact second.added location entry between there
  | some other =>
      obtain ⟨made, path, member, finds⟩ := first.added location other free between
      have same := (second.kept _ _ between).symm.trans there
      exact ⟨Option.some.inj same ▸ made, path, member, finds.keeps sound second.keeps⟩

/-- What stands somewhere stood there before, or is a new directory. -/
theorem cases (grown : Grown paths tree after) (location : Location) :
    after.entryAt location = tree.entryAt location ∨
      (tree.entryAt location = none ∧ after.entryAt location = some .directory ∧
        ∃ path ∈ paths, after.Finds path true location) := by
  cases stood : tree.entryAt location with
  | some entry => exact .inl (grown.kept location entry stood)
  | none =>
      cases stands : after.entryAt location with
      | none => exact .inl rfl
      | some entry =>
          obtain ⟨rfl, way⟩ := grown.added location entry stood stands
          exact .inr ⟨rfl, rfl, way⟩

end Grown

theorem grown_of_makeDirectory (sound : tree.Sound) (made : tree.makeDirectory path = .ok after) :
    Grown [path] tree after := by
  obtain ⟨there, finds, -⟩ := exists_place made
  obtain ⟨-, free, changed⟩ := makeDirectory_ok finds made
  have keeps := (makeDirectory_preserves made).keeps
  constructor
  · intro location entry stands
    have elsewhere : location ≠ there := by
      rintro rfl
      exact absurd (free.symm.trans stands) (by simp)
    rw [changed, Function.update_of_ne elsewhere, stands]
  · intro location entry absent stands
    by_cases here : location = there
    · subst here
      rw [changed, Function.update_self, Option.some.injEq] at stands
      exact ⟨stands.symm, path, List.mem_singleton_self path, finds.keeps sound keeps⟩
    · rw [changed, Function.update_of_ne here, absent] at stands
      exact absurd stands (by simp)

/-- A directory that has been made is there. -/
theorem look_makeDirectory (sound : tree.Sound) (made : tree.makeDirectory path = .ok after) :
    after.look path = .ok (some .directory) := by
  obtain ⟨there, finds, -⟩ := exists_place made
  obtain ⟨-, -, changed⟩ := makeDirectory_ok finds made
  rw [look_eq (finds.keeps sound (makeDirectory_preserves made).keeps), if_pos rfl, changed,
    Function.update_self]

end Tree

end TreeGrammar
