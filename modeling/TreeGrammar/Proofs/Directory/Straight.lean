/-
# TreeGrammar.Proofs.Directory.Straight -- ways that never lead back

Names without `..` lead deeper with each of them, so a way through them depends on
nothing but the directories that it passes (`Tree.follow_straight`).  The directories on such
a way are listed deepest first in a `Tree.chain`; when everything that is missing on the way
of a path is missing behind its last directory, and no name there leads back, the missing
paths are a chain (`Tree.missing_chain`).
-/
import TreeGrammar.Proofs.Directory.Growth

set_option autoImplicit false

namespace TreeGrammar

/-- The paths above one name more are the path before it and those above that one. -/
theorem Path.ancestors_concat (absolute : Bool) (parts : List Text) (name : Text) :
    Path.ancestors ⟨absolute, parts ++ [name]⟩ =
      ⟨absolute, parts⟩ :: Path.ancestors ⟨absolute, parts⟩ := by
  have shorter : ∀ count ∈ List.range parts.length,
      (⟨absolute, (parts ++ [name]).take count⟩ : Path) = ⟨absolute, parts.take count⟩ := by
    intro count member
    rw [List.take_append_of_le_length (List.mem_range.1 member).le]
  simp only [ancestors, List.length_append, List.length_singleton, List.range_succ,
    List.map_append, List.reverse_append, List.map_singleton, List.reverse_singleton,
    List.take_left, List.singleton_append, List.map_congr_left shorter]

namespace Tree

variable {tree after : Tree} {here there top : Location} {names front : List Text}
variable {absolute : Bool}

theorem entryAt_of_leading (found : tree.follow here names = .ok (.taken there .directory)) :
    tree.entryAt here = some .directory := by
  cases names with
  | cons name rest => exact (follow_cons found).1
  | nil =>
      cases stands : tree.entryAt here with
      | none => simp [follow, stands] at found
      | some entry =>
          simp only [follow, stands, Except.ok.injEq, Place.taken.injEq] at found
          rw [found.2]

/-- **Straight ways.**  Names that do not lead back lead to a directory if they are short enough
and there is a directory behind each of them. -/
theorem follow_straight (forth : ∀ name ∈ names, name ≠ Path.back) :
    tree.follow here names = .ok (.taken there .directory) ↔ there = here ++ names ∧
      (∀ name ∈ names, (Text.encode name).length ≤ nameLimit) ∧
      ∀ front, front <+: names → tree.entryAt (here ++ front) = some .directory := by
  constructor
  · intro found
    induction names generalizing here with
    | nil =>
        have stands := entryAt_of_leading found
        simp only [follow, stands, Except.ok.injEq, Place.taken.injEq, and_true] at found
        refine ⟨by simp [found], by simp, fun front isPrefix => ?_⟩
        rw [List.prefix_nil.1 isPrefix, List.append_nil, stands]
    | cons name rest ih =>
        obtain ⟨nameForth, restForth⟩ := List.forall_mem_cons.1 forth
        obtain ⟨directory, onward, passes⟩ := follow_cons found
        rw [child, if_neg nameForth] at onward
        obtain ⟨same, short, through⟩ := ih restForth onward
        refine ⟨by rw [same, List.append_assoc, List.singleton_append],
          List.forall_mem_cons.2 ⟨(passes nameForth).1, short⟩, fun front isPrefix => ?_⟩
        rcases List.prefix_cons_iff.1 isPrefix with rfl | ⟨tail, rfl, tailPrefix⟩
        · rwa [List.append_nil]
        · rw [← List.singleton_append, ← List.append_assoc]
          exact through tail tailPrefix
  · rintro ⟨rfl, short, through⟩
    induction names generalizing here with
    | nil =>
        have stands := through [] List.prefix_rfl
        rw [List.append_nil] at stands ⊢
        simp [follow, stands]
    | cons name rest ih =>
        obtain ⟨nameForth, restForth⟩ := List.forall_mem_cons.1 forth
        obtain ⟨nameShort, restShort⟩ := List.forall_mem_cons.1 short
        have next : tree.entryAt (here ++ [name]) = some .directory :=
          through [name] (List.prefix_append [name] rest)
        have directory := through [] List.nil_prefix
        rw [List.append_nil] at directory
        rw [follow_cons_eq directory fun _ => ⟨nameShort, fun _ => by simp [next]⟩, child,
          if_neg nameForth, ih restForth restShort fun front isPrefix => ?_]
        · rw [List.append_assoc, List.singleton_append]
        · rw [List.append_assoc, List.singleton_append]
          exact through (name :: front) (List.cons_prefix_cons.2 ⟨rfl, isPrefix⟩)

/-! ## What is missing on a straight way -/

/-- The paths behind others, one name less each; the names come last one first. -/
def chain (absolute : Bool) (front : List Text) : List Text → List Path
  | [] => []
  | name :: above => ⟨absolute, front ++ (name :: above).reverse⟩ :: chain absolute front above

theorem look_current (tree : Tree) (absolute : Bool) :
    tree.look ⟨absolute, []⟩ = .ok (some .directory) := by
  cases absolute <;> rfl

/-- When each path on the way of another one leads to a directory, or to nothing by a name that
does not lead back, then the missing ones are a chain behind a path that leads to a directory. -/
theorem missing_chain {path : Path}
    (looks : ∀ above ∈ path :: path.ancestors, tree.look above = .ok (some .directory) ∨
      (tree.look above = .ok none ∧ above.name ≠ Path.back)) :
    ∃ front names, path.parts = front ++ names.reverse ∧
      tree.look ⟨path.absolute, front⟩ = .ok (some .directory) ∧
      (∀ name ∈ names, name ≠ Path.back) ∧
      (path :: path.ancestors).filter (fun above => tree.look above = .ok none) =
        chain path.absolute front names := by
  obtain ⟨absolute, parts⟩ := path
  induction parts using List.reverseRecOn with
  | nil =>
      have root := tree.look_current absolute
      exact ⟨[], [], rfl, root, by simp, by simp [Path.ancestors, root, chain]⟩
  | append_singleton parts name ih =>
      rcases looks _ List.mem_cons_self with stands | ⟨missing, forth⟩
      · refine ⟨parts ++ [name], [], by simp, stands, by simp, ?_⟩
        refine List.filter_eq_nil_iff.2 (List.forall_mem_cons.2 ⟨by simp [stands], ?_⟩)
        exact fun above member => by simp [look_ancestors stands member]
      · rw [Path.ancestors_concat] at looks ⊢
        obtain ⟨front, names, split, stands, namesForth, same⟩ :=
          ih fun above member => looks above (List.mem_cons_of_mem _ member)
        have split : parts = front ++ names.reverse := split
        refine ⟨front, name :: names, by simp [split], stands, List.forall_mem_cons.2
          ⟨by simpa [Path.name] using forth, namesForth⟩, ?_⟩
        rw [List.filter_cons_of_pos (by simpa using missing), same, chain]
        simp [split]

end Tree

end TreeGrammar
