/-
# TreeGrammar.Proofs.Directory.Operations -- what the operations on files do

`Tree.Finds` says that a path leads to a location if it is short enough, whatever
stands there.  For paths that lead to known locations, each operation is described
by what has to stand there and what stands there afterwards.

A path that can be followed at all leads to some location (`Tree.resolve_place`), so
the descriptions hold of every path once the locations are chosen.
-/
import TreeGrammar.Proofs.Directory.Following

set_option autoImplicit false

namespace TreeGrammar.Tree

open Refusal (Reason)

variable {tree after : Tree}

/-! ## Paths to known locations -/

/-- The path leads to the location if it is short enough. -/
def Finds (tree : Tree) (path : Path) (short : Bool) (location : Location) : Prop :=
  tree.resolve path = if short then .ok (tree.placeAt location) else .error .nameTooLong

/-- The path leads to the directory at the location, which stands in a directory. -/
structure Houses (tree : Tree) (folder : Path) (here : Location) : Prop where
  leads : tree.Leads folder.parts here
  above : tree.entryAt here.dropLast = some .directory

namespace Houses

variable {folder : Path} {here : Location}

theorem finds (houses : tree.Houses folder here) {name : Text} (single : Path.IsComponent name) :
    tree.Finds (folder.join name) (folder.fits name) (child here name) :=
  resolve_join houses.leads houses.above single

theorem collapsed (houses : tree.Houses folder here) : tree.Houses folder.collapsed here :=
  ⟨leads_collapsed folder.absolute houses.leads, houses.above⟩

theorem keeps (houses : tree.Houses folder here) (kept : tree.Keeps after) :
    after.Houses folder here :=
  ⟨houses.leads.keeps kept, kept _ houses.above⟩

end Houses

theorem child_injective {here : Location} {name other : Text}
    (same : child here name = child here other) : name = other := by
  unfold child at same
  split at same <;> split at same
  · rename_i back otherBack
    rw [back, otherBack]
  · have := congrArg List.length same
    simp only [List.length_dropLast, List.length_append, List.length_singleton] at this
    omega
  · have := congrArg List.length same
    simp only [List.length_dropLast, List.length_append, List.length_singleton] at this
    omega
  · exact List.head_eq_of_cons_eq (List.append_cancel_left same)

/-! ## Operations on files -/

/-- An operation that begins with following a path goes on from what is found there. -/
theorem Finds.onward {path : Path} {short : Bool} {here : Location} {α : Type} {result : α}
    {next : Place → Except Reason α} (finds : tree.Finds path short here)
    (done : tree.resolve path >>= next = .ok result) :
    short = true ∧ next (tree.placeAt here) = .ok result := by
  rw [finds] at done
  cases short with
  | false => simp [bind, Except.bind] at done
  | true => exact ⟨rfl, done⟩

section Operations

variable {path source target : Path} {short shortToo : Bool} {here there : Location}
variable {content : Text.Octets}

theorem look_eq (finds : tree.Finds path short here) :
    tree.look path = if short then .ok (tree.entryAt here) else .error .nameTooLong := by
  unfold look
  rw [finds]
  cases short with
  | false => rfl
  | true => cases stands : tree.entryAt here <;> simp [placeAt, stands]

theorem read_eq_ok (finds : tree.Finds path short here) :
    tree.read path = .ok content ↔ short = true ∧ tree.entryAt here = some (.file content) := by
  constructor
  · intro got
    obtain ⟨isShort, found⟩ := finds.onward got
    refine ⟨isShort, ?_⟩
    unfold placeAt at found
    rcases stands : tree.entryAt here with _ | _ | there <;>
      simp [stands, pure, Except.pure, throw, throwThe, MonadExceptOf.throw] at found
    rw [found]
  · rintro ⟨rfl, stands⟩
    unfold read
    rw [finds]
    simp [placeAt, stands, bind, Except.bind, pure, Except.pure]

theorem makeDirectory_ok (finds : tree.Finds path short here)
    (made : tree.makeDirectory path = .ok after) :
    short = true ∧ tree.entryAt here = none ∧
      after.entryAt = Function.update tree.entryAt here (some .directory) := by
  obtain ⟨isShort, found⟩ := finds.onward made
  refine ⟨isShort, ?_⟩
  unfold placeAt at found
  cases stands : tree.entryAt here with
  | some entry => simp [stands, throw, throwThe, MonadExceptOf.throw] at found
  | none =>
      simp only [stands, pure, Except.pure, Except.ok.injEq] at found
      rw [← found]
      exact ⟨rfl, entryAt_put tree _ (ne_root_of_entryAt tree (by simp [stands]))⟩

theorem createFile_ok (finds : tree.Finds path short here)
    (made : tree.createFile path = .ok after) :
    short = true ∧ tree.entryAt here = none ∧
      after.entryAt = Function.update tree.entryAt here (some (.file [])) := by
  obtain ⟨isShort, found⟩ := finds.onward made
  refine ⟨isShort, ?_⟩
  unfold placeAt at found
  cases stands : tree.entryAt here with
  | some entry => simp [stands, throw, throwThe, MonadExceptOf.throw] at found
  | none =>
      simp only [stands, pure, Except.pure, Except.ok.injEq] at found
      rw [← found]
      exact ⟨rfl, entryAt_put tree _ (ne_root_of_entryAt tree (by simp [stands]))⟩

theorem writeFile_ok (finds : tree.Finds path short here)
    (written : tree.writeFile path content = .ok after) :
    short = true ∧ tree.entryAt here ≠ some .directory ∧
      after.entryAt = Function.update tree.entryAt here (some (.file content)) := by
  obtain ⟨isShort, found⟩ := finds.onward written
  refine ⟨isShort, ?_⟩
  unfold placeAt at found
  rcases stands : tree.entryAt here with _ | _ | old
  · simp only [stands, pure, Except.pure, Except.ok.injEq] at found
    rw [← found]
    exact ⟨(by simp), entryAt_put tree _ (ne_root_of_entryAt tree (by simp [stands]))⟩
  · simp [stands, throw, throwThe, MonadExceptOf.throw] at found
  · simp only [stands, pure, Except.pure, Except.ok.injEq] at found
    rw [← found]
    exact ⟨(by simp), entryAt_put tree _ (ne_root_of_entryAt tree (by simp [stands]))⟩

theorem link_ok (finds : tree.Finds source short here) (findsToo : tree.Finds target shortToo there)
    (linked : tree.link source target = .ok after) :
    short = true ∧ shortToo = true ∧ ∃ content, tree.entryAt here = some (.file content) ∧
      tree.entryAt there = none ∧
      after.entryAt = Function.update tree.entryAt there (some (.file content)) := by
  obtain ⟨isShort, found⟩ := finds.onward linked
  refine ⟨isShort, ?_⟩
  unfold placeAt at found
  cases stands : tree.entryAt here with
  | none => simp [stands, throw, throwThe, MonadExceptOf.throw] at found
  | some entry =>
      simp only [stands] at found
      obtain ⟨isShortToo, foundToo⟩ := findsToo.onward found
      refine ⟨isShortToo, ?_⟩
      unfold placeAt at foundToo
      cases standsToo : tree.entryAt there with
      | some other => simp [standsToo, throw, throwThe, MonadExceptOf.throw] at foundToo
      | none =>
          cases entry with
          | directory => simp [standsToo, throw, throwThe, MonadExceptOf.throw] at foundToo
          | file content =>
              simp only [standsToo, pure, Except.pure, Except.ok.injEq] at foundToo
              rw [← foundToo]
              exact ⟨content, rfl, rfl,
                entryAt_put tree _ (ne_root_of_entryAt tree (by simp [standsToo]))⟩

theorem rename_of_file (finds : tree.Finds source true here)
    (findsToo : tree.Finds target true there)
    (stands : tree.entryAt here = some (.file content))
    (standsToo : tree.entryAt there ≠ some .directory) :
    tree.rename source target = .ok ((tree.erase here).put there (.file content)) := by
  unfold rename
  rw [finds, findsToo]
  unfold placeAt
  rcases other : tree.entryAt there with _ | _ | old
  · simp [stands, bind, Except.bind, pure, Except.pure]
  · exact absurd other standsToo
  · simp [stands, bind, Except.bind, pure, Except.pure]

theorem entryAt_erase_put (stands : tree.entryAt here = some (.file content))
    (standsToo : tree.entryAt there ≠ some .directory) :
    ((tree.erase here).put there (.file content)).entryAt =
      Function.update (Function.update tree.entryAt here none) there (some (.file content)) := by
  rw [entryAt_put _ _ (ne_root_of_entryAt tree standsToo),
    entryAt_erase _ (ne_root_of_entryAt tree (by simp [stands]))]

theorem rename_ok (finds : tree.Finds source short here)
    (findsToo : tree.Finds target shortToo there) (moved : tree.rename source target = .ok after) :
    short = true ∧ shortToo = true ∧ ∃ content, tree.entryAt here = some (.file content) ∧
      tree.entryAt there ≠ some .directory ∧ after.entryAt =
        Function.update (Function.update tree.entryAt here none) there (some (.file content)) := by
  obtain ⟨isShort, found⟩ := finds.onward moved
  unfold placeAt at found
  rcases stands : tree.entryAt here with _ | _ | content
  · simp [stands, throw, throwThe, MonadExceptOf.throw] at found
  · simp [stands, throw, throwThe, MonadExceptOf.throw] at found
  · simp only [stands] at found
    obtain ⟨isShortToo, foundToo⟩ := findsToo.onward found
    refine ⟨isShort, isShortToo, content, rfl, ?_⟩
    have standsToo : tree.entryAt there ≠ some .directory := by
      intro directory
      simp [placeAt, directory, throw, throwThe, MonadExceptOf.throw] at foundToo
    subst isShort isShortToo
    rw [rename_of_file finds findsToo stands standsToo, Except.ok.injEq] at moved
    rw [← moved]
    exact ⟨standsToo, entryAt_erase_put stands standsToo⟩

theorem removeFile_of_file (finds : tree.Finds path true here)
    (stands : tree.entryAt here = some (.file content)) :
    tree.removeFile path = .ok (tree.erase here) := by
  unfold removeFile
  rw [finds]
  simp [placeAt, stands, bind, Except.bind, pure, Except.pure]

theorem removeFile_of_free (finds : tree.Finds path true here) (stands : tree.entryAt here = none) :
    tree.removeFile path = .error .missing := by
  unfold removeFile
  rw [finds]
  simp [placeAt, stands, bind, Except.bind, throw, throwThe, MonadExceptOf.throw]

/-- Only where nothing stands a removal finds nothing. -/
theorem free_of_removeFile (finds : tree.Finds path short here)
    (refused : tree.removeFile path = .error .missing) : tree.entryAt here = none := by
  cases short with
  | false =>
      unfold removeFile at refused
      rw [finds] at refused
      simp [bind, Except.bind] at refused
  | true =>
      unfold removeFile at refused
      rw [finds] at refused
      unfold placeAt at refused
      rcases stands : tree.entryAt here with _ | _ | content
      · rfl
      · simp [stands, bind, Except.bind, throw, throwThe, MonadExceptOf.throw] at refused
      · simp [stands, bind, Except.bind, pure, Except.pure] at refused

theorem removeFile_ok (finds : tree.Finds path short here)
    (removed : tree.removeFile path = .ok after) :
    short = true ∧ ∃ content, tree.entryAt here = some (.file content) ∧
      after.entryAt = Function.update tree.entryAt here none := by
  obtain ⟨isShort, found⟩ := finds.onward removed
  refine ⟨isShort, ?_⟩
  unfold placeAt at found
  rcases stands : tree.entryAt here with _ | _ | content
  · simp [stands, throw, throwThe, MonadExceptOf.throw] at found
  · simp [stands, throw, throwThe, MonadExceptOf.throw] at found
  · simp only [stands, pure, Except.pure, Except.ok.injEq] at found
    rw [← found]
    exact ⟨content, rfl, entryAt_erase tree (ne_root_of_entryAt tree (by simp [stands]))⟩

theorem entryAt_of_hasChildren (childless : tree.hasChildren here = false) (name : Text) :
    tree.entryAt (here ++ [name]) = none := by
  simp only [hasChildren, List.any_eq_false, Bool.and_eq_true, decide_eq_true_eq] at childless
  have absent : ∀ entry ∈ tree.entries, entry.1 ≠ here ++ [name] := by
    intro entry member same
    exact childless entry member (by simp [same])
  simp only [entryAt, List.append_eq_nil_iff, List.cons_ne_nil, and_false, if_false]
  exact Keyed.get?_eq_none absent

theorem hasChildren_eq_false (free : ∀ name, tree.entryAt (here ++ [name]) = none) :
    tree.hasChildren here = false := by
  simp only [hasChildren, List.any_eq_false, Bool.and_eq_true, decide_eq_true_eq]
  rintro entry member ⟨below, inside⟩
  have split : here ++ [entry.1.getLast below] = entry.1 := by
    rw [← inside, List.dropLast_concat_getLast below]
  have absent := free (entry.1.getLast below)
  rw [split, entryAt, if_neg below] at absent
  exact Keyed.get?_ne_none_of_mem member absent

/-- A directory that nothing stands in can be removed by a name that does not lead back. -/
theorem removeDirectory_of_empty (finds : tree.Finds path true here)
    (stands : tree.entryAt here = some .directory)
    (free : ∀ name, tree.entryAt (here ++ [name]) = none)
    (named : path.parts ≠ []) (forth : path.name ≠ Path.back) :
    tree.removeDirectory path = .ok (tree.erase here) := by
  unfold removeDirectory
  rw [finds]
  simp [placeAt, stands, named, forth, hasChildren_eq_false free, bind, Except.bind, pure,
    Except.pure]

theorem removeDirectory_ok (finds : tree.Finds path short here)
    (removed : tree.removeDirectory path = .ok after) :
    short = true ∧ tree.entryAt here = some .directory ∧ tree.hasChildren here = false ∧
      after = tree.erase here := by
  obtain ⟨isShort, found⟩ := finds.onward removed
  refine ⟨isShort, ?_⟩
  unfold placeAt at found
  rcases stands : tree.entryAt here with _ | _ | content
  · simp [stands, throw, throwThe, MonadExceptOf.throw] at found
  · simp only [stands] at found
    split at found
    · simp [throw, throwThe, MonadExceptOf.throw] at found
    · split at found
      · simp [throw, throwThe, MonadExceptOf.throw] at found
      · split at found
        · simp [throw, throwThe, MonadExceptOf.throw] at found
        · rename_i childless
          simp only [pure, Except.pure, Except.ok.injEq] at found
          exact ⟨rfl, Bool.eq_false_iff.2 childless, found.symm⟩
  · simp [stands, throw, throwThe, MonadExceptOf.throw] at found

end Operations

/-! ## Paths that can be followed -/

theorem follow_place {here : Location} {parts : List Text} {place : Place}
    (found : tree.follow here parts = .ok place) :
    ∃ there, place = tree.placeAt there ∧ (tree.entryAt there = none →
      ∃ above name, there = above ++ [name] ∧ tree.entryAt above = some .directory) := by
  induction parts generalizing here with
  | nil =>
      cases stands : tree.entryAt here with
      | none => simp [follow, stands] at found
      | some entry =>
          simp only [follow, stands, Except.ok.injEq] at found
          exact ⟨here, by rw [← found, placeAt, stands], by simp [stands]⟩
  | cons name rest ih =>
      rw [follow] at found
      split at found
      · simp at found
      · simp at found
      · rename_i directory
        split at found
        · exact ih found
        · split at found
          · simp at found
          · split at found
            · rename_i last
              rw [Except.ok.injEq] at found
              exact ⟨here ++ [name], by rw [← found, placeAt, last.2],
                fun _ => ⟨here, name, rfl, directory⟩⟩
            · exact ih found

/-- A path that can be followed leads to a location; where nothing stands, the location is
one of a directory. -/
theorem resolve_place {path : Path} {place : Place} (found : tree.resolve path = .ok place) :
    ∃ there, tree.Finds path true there ∧ (tree.entryAt there = none →
      ∃ above name, there = above ++ [name] ∧ tree.entryAt above = some .directory) := by
  have followed : tree.follow [] path.parts = .ok place := by
    unfold resolve at found
    split at found
    · simp at found
    · exact found
  obtain ⟨there, same, housed⟩ := follow_place followed
  exact ⟨there, by rw [Finds, found, same, if_pos rfl], housed⟩

end TreeGrammar.Tree
