/-
# TreeGrammar.Proofs.Directory.Following -- where paths lead

`Tree.Leads` says that names lead from the current directory to a directory.  One
name more leads to the place of that name in the directory, whatever stands there
(`resolve_join`); only the lengths of the path and of the name can be in the way,
and these do not depend on the tree (`Path.fits`).

The names before others (`Leads.prefix`) and the names with each `..` taken back
(`Leads.collapsed`) lead to directories too, and a tree that keeps the directories
of another leads wherever that one does (`Leads.keeps`).
-/
import Mathlib.Data.List.Induction
import TreeGrammar.Proofs.Directory.Entries
import TreeGrammar.Proofs.Text.Parts

set_option autoImplicit false

namespace TreeGrammar

/-! ## Texts of paths -/

namespace Text

theorem encode_append (first second : Text) :
    encode (first ++ second) = encode first ++ encode second := by
  simp [encode]

theorem length_encode_le {first second : Text} (isPrefix : first <+: second) :
    (encode first).length ≤ (encode second).length := by
  obtain ⟨tail, rfl⟩ := isPrefix
  rw [encode_append, List.length_append]
  exact Nat.le_add_right _ _

end Text

namespace Path

/-- A text that is one name of a path and nothing else. -/
def IsComponent (text : Text) : Prop :=
  ofText text = relative [text]

instance (text : Text) : Decidable (IsComponent text) :=
  inferInstanceAs (Decidable (_ = _))

theorem isComponent_iff {text : Text} :
    IsComponent text ↔ text ≠ [] ∧ text ≠ ['.'] ∧ '/' ∉ text := by
  constructor
  · intro single
    have parts : partsOf text = [text] := congrArg Path.parts single
    have member : text ∈ partsOf text := by simp [parts]
    simp only [partsOf, List.mem_filter, decide_eq_true_eq] at member
    exact ⟨member.2.1, member.2.2, Text.not_mem_of_mem_split member.1⟩
  · rintro ⟨nonempty, notPoint, plain⟩
    have head : text.head? ≠ some '/' := fun same => plain (List.mem_of_head? same)
    simp [IsComponent, ofText, relative, partsOf, Text.split_of_not_mem plain, nonempty, notPoint,
      head]

theorem join_of_isComponent (path : Path) {text : Text} (single : IsComponent text) :
    path.join text = { path with parts := path.parts ++ [text] } := by
  unfold join
  rw [show ofText text = relative [text] from single]
  rfl

/-- Whether a path with one name more is short enough, and so is the name. -/
def fits (path : Path) (name : Text) : Bool :=
  (Text.encode (path.join name).text).length ≤ Tree.pathLimit
    && (name = back || (Text.encode name).length ≤ Tree.nameLimit)

/-- A path with fewer names has a shorter text, but for the text of no name at all. -/
theorem length_text_le {absolute : Bool} {parts more : List Text} (first : parts <+: more) :
    (Text.encode (Path.text ⟨absolute, parts⟩)).length ≤
      max 1 (Text.encode (Path.text ⟨absolute, more⟩)).length := by
  have joined : Text.join ['/'] parts <+: Text.join ['/'] more := Text.join_isPrefix_join first
  cases absolute with
  | true =>
      refine Nat.le_trans (Text.length_encode_le ?_) (Nat.le_max_right _ _)
      simpa [text] using joined
  | false =>
      by_cases empty : parts = []
      · subst empty
        exact Nat.le_trans (by decide) (Nat.le_max_left _ _)
      · have notEmpty : more ≠ [] := by
          rintro rfl
          exact empty (List.prefix_nil.1 first)
        refine Nat.le_trans (Text.length_encode_le ?_) (Nat.le_max_right _ _)
        simpa [text, empty, notEmpty] using joined

end Path

namespace Tree

/-! ## Following names -/

/-- Names lead from the current directory to a directory. -/
def Leads (tree : Tree) (parts : List Text) (here : Location) : Prop :=
  tree.follow [] parts = .ok (.taken here .directory)

/-- What a path finds at a location. -/
def placeAt (tree : Tree) (location : Location) : Place :=
  match tree.entryAt location with
  | none => .free location
  | some entry => .taken location entry

/-- The location of a name in a directory. -/
def child (here : Location) (name : Text) : Location :=
  if name = Path.back then here.dropLast else here ++ [name]

theorem entryAt_of_follow {tree : Tree} {here there : Location} {parts : List Text} {entry : Entry}
    (found : tree.follow here parts = .ok (.taken there entry)) :
    tree.entryAt there = some entry := by
  induction parts generalizing here with
  | nil =>
      cases stands : tree.entryAt here with
      | none => simp [follow, stands] at found
      | some other =>
          simp only [follow, stands, Except.ok.injEq, Place.taken.injEq] at found
          rw [← found.1, stands, found.2]
  | cons name rest ih =>
      simp only [follow] at found
      split at found
      · simp at found
      · simp at found
      · split at found
        · exact ih found
        · split at found
          · simp at found
          · split at found
            · simp at found
            · exact ih found

/-- The first step on a way that leads to a directory. -/
theorem follow_cons {tree : Tree} {here there : Location} {name : Text} {rest : List Text}
    {entry : Entry} (found : tree.follow here (name :: rest) = .ok (.taken there entry)) :
    tree.entryAt here = some .directory ∧
      tree.follow (child here name) rest = .ok (.taken there entry) ∧
      (name ≠ Path.back → (Text.encode name).length ≤ nameLimit ∧
        (rest = [] → tree.entryAt (here ++ [name]) ≠ none)) := by
  simp only [follow] at found
  split at found
  · simp at found
  · simp at found
  · rename_i directory
    refine ⟨directory, ?_⟩
    split at found
    · rename_i back
      exact ⟨by simpa [child, back] using found, fun other => absurd back other⟩
    · rename_i notBack
      split at found
      · simp at found
      · rename_i short
        split at found
        · simp at found
        · rename_i taken
          exact ⟨by simpa [child, notBack] using found,
            fun _ => ⟨Nat.not_lt.1 short, fun last absent => taken ⟨last, absent⟩⟩⟩

/-- The way through a directory, where each name is short enough and leads on. -/
theorem follow_cons_eq {tree : Tree} {here : Location} {name : Text} {rest : List Text}
    (directory : tree.entryAt here = some .directory)
    (passes : name ≠ Path.back → (Text.encode name).length ≤ nameLimit ∧
      (rest = [] → tree.entryAt (here ++ [name]) ≠ none)) :
    tree.follow here (name :: rest) = tree.follow (child here name) rest := by
  by_cases back : name = Path.back
  · simp [follow, directory, child, back]
  · obtain ⟨short, taken⟩ := passes back
    have goesOn : ¬(rest = [] ∧ tree.entryAt (here ++ [name]) = none) := fun both =>
      taken both.1 both.2
    simp only [follow, directory, back, if_false, Nat.not_lt.2 short, goesOn, child]

theorem follow_append {tree : Tree} {here there : Location} {parts : List Text}
    (found : tree.follow here parts = .ok (.taken there .directory)) (rest : List Text) :
    tree.follow here (parts ++ rest) = tree.follow there rest := by
  induction parts generalizing here with
  | nil =>
      cases stands : tree.entryAt here with
      | none => simp [follow, stands] at found
      | some entry =>
          simp only [follow, stands, Except.ok.injEq, Place.taken.injEq] at found
          rw [List.nil_append, found.1]
  | cons name more ih =>
      obtain ⟨directory, onward, passes⟩ := follow_cons found
      rw [List.cons_append, follow_cons_eq directory, ih onward]
      intro notBack
      refine ⟨(passes notBack).1, fun last => (passes notBack).2 ?_⟩
      exact (List.append_eq_nil_iff.1 last).1

/-- The names at the front of a way to a directory lead to a directory. -/
theorem follow_prefix {tree : Tree} {here there : Location} {parts rest : List Text}
    (found : tree.follow here (parts ++ rest) = .ok (.taken there .directory)) :
    ∃ between, tree.follow here parts = .ok (.taken between .directory) := by
  induction parts generalizing here with
  | nil =>
      cases rest with
      | nil => exact ⟨there, found⟩
      | cons name more => exact ⟨here, by simp [follow, (follow_cons found).1]⟩
  | cons name more ih =>
      obtain ⟨directory, onward, passes⟩ := follow_cons found
      obtain ⟨between, reached⟩ := ih onward
      refine ⟨between, ?_⟩
      rw [follow_cons_eq directory, reached]
      intro notBack
      refine ⟨(passes notBack).1, fun last absent => ?_⟩
      -- the last name leads to a directory, so something stands there
      subst last
      have stands := reached
      simp [follow, child, notBack, absent] at stands

namespace Leads

variable {tree : Tree} {parts : List Text} {here : Location}

theorem entryAt (leads : tree.Leads parts here) : tree.entryAt here = some .directory :=
  entryAt_of_follow leads

theorem before {rest : List Text} (leads : tree.Leads (parts ++ rest) here) :
    ∃ between, tree.Leads parts between :=
  follow_prefix leads

theorem append_iff {there : Location} {rest : List Text} (leads : tree.Leads parts here) :
    tree.Leads (parts ++ rest) there ↔ tree.follow here rest = .ok (.taken there .directory) := by
  rw [Leads, follow_append leads]

end Leads

/-- A tree that keeps the directories of another leads wherever that one does. -/
theorem follow_keeps {tree other : Tree} (keeps : tree.Keeps other) {parts : List Text}
    {here there : Location} (found : tree.follow here parts = .ok (.taken there .directory)) :
    other.follow here parts = .ok (.taken there .directory) := by
  induction parts generalizing here with
  | nil =>
      have stands := entryAt_of_follow found
      have same : here = there := by
        cases first : tree.entryAt here <;> simp [follow, first] at found
        exact found.1
      subst same
      simp [follow, keeps here stands]
  | cons name rest ih =>
      obtain ⟨directory, onward, passes⟩ := follow_cons found
      rw [follow_cons_eq (keeps here directory), ih onward]
      intro notBack
      refine ⟨(passes notBack).1, fun last absent => ?_⟩
      have reached := ih onward
      simp [last, follow, child, notBack, absent] at reached

theorem Leads.keeps {tree other : Tree} {parts : List Text} {here : Location}
    (leads : tree.Leads parts here) (keeps : tree.Keeps other) : other.Leads parts here :=
  follow_keeps keeps leads

/-- One name behind a way to a directory. -/
theorem follow_singleton {tree : Tree} {here there : Location} {name : Text}
    (found : tree.follow here [name] = .ok (.taken there .directory)) :
    there = child here name := by
  obtain ⟨-, onward, -⟩ := follow_cons found
  cases stands : tree.entryAt (child here name) <;> simp [follow, stands] at onward
  exact onward.1.symm

/-- Taking back each `..` together with the name before it leads to the same directory. -/
theorem leads_collapsed {tree : Tree} (absolute : Bool) {parts : List Text} {here : Location}
    (leads : tree.Leads parts here) : tree.Leads (parts.foldl (Path.step absolute) []) here := by
  induction parts using List.reverseRecOn generalizing here with
  | nil => exact leads
  | append_singleton front name ih =>
      obtain ⟨there, reached⟩ := leads.before
      have onward := (reached.append_iff).1 leads
      have kept := ih reached
      rw [List.foldl_append, List.foldl_cons, List.foldl_nil]
      generalize front.foldl (Path.step absolute) [] = names at kept
      have stays : tree.Leads (names ++ [name]) here := (kept.append_iff).2 onward
      by_cases back : name = Path.back
      · rcases List.eq_nil_or_concat names with rfl | ⟨first, last, rfl⟩
        · cases absolute with
          | false => simpa [Path.step, back] using stays
          | true =>
              -- above the root there is only the root
              have atRoot : there = [] := by
                simpa [Leads, follow, entryAt_root] using kept.symm
              have same : here = [] := by
                rw [follow_singleton onward, atRoot, child, if_pos back, List.dropLast_nil]
              simp [Path.step, back, Leads, follow, entryAt_root, same]
        · rw [List.concat_eq_append] at *
          by_cases lastBack : last = Path.back
          · simpa [Path.step, back, lastBack] using stays
          · obtain ⟨above, opened⟩ := kept.before
            have inside := follow_singleton ((opened.append_iff).1 kept)
            have same : here = above := by
              rw [follow_singleton onward, inside, child, if_pos back, child, if_neg lastBack,
                List.dropLast_concat]
            simpa [Path.step, back, lastBack, same] using opened
      · simpa [Path.step, back] using stays

/-! ## One name more -/

/-- **One name more.**  Behind a way to a directory a name leads to its place there, and is
refused only for its length or that of the path. -/
theorem resolve_join {tree : Tree} {path : Path} {here : Location} {name : Text}
    (leads : tree.Leads path.parts here) (above : tree.entryAt here.dropLast = some .directory)
    (single : Path.IsComponent name) :
    tree.resolve (path.join name) =
      if path.fits name then .ok (tree.placeAt (child here name)) else .error .nameTooLong := by
  have joined := path.join_of_isComponent single
  have lengths : path.fits name = ((Text.encode (path.join name).text).length ≤ pathLimit
      && (name = Path.back || (Text.encode name).length ≤ nameLimit)) := rfl
  unfold resolve
  by_cases long : pathLimit < (Text.encode (path.join name).text).length
  · have tooLong : path.fits name = false := by
      rw [lengths, decide_eq_false (Nat.not_le.2 long), Bool.false_and]
    simp [long, tooLong]
  · have onward : tree.follow [] (path.join name).parts = tree.follow here [name] := by
      rw [joined]
      exact follow_append leads [name]
    have short : (Text.encode (path.join name).text).length ≤ pathLimit := Nat.not_lt.1 long
    rw [if_neg long, onward]
    by_cases back : name = Path.back
    · subst back
      simp [lengths, short, follow, leads.entryAt, child, placeAt, above]
    · by_cases nameLong : nameLimit < (Text.encode name).length
      · simp [lengths, short, back, follow, leads.entryAt, nameLong]
      · have nameShort : (Text.encode name).length ≤ nameLimit := Nat.not_lt.1 nameLong
        cases stands : tree.entryAt (here ++ [name]) <;>
          simp [lengths, short, back, follow, leads.entryAt, nameLong, nameShort, child, placeAt,
            stands]

/-! ## The directories of a path -/

theorem leads_of_look {tree : Tree} {path : Path}
    (there : tree.look path = .ok (some .directory)) :
    ∃ here, tree.resolve path = .ok (.taken here .directory) ∧ tree.Leads path.parts here := by
  unfold look at there
  split at there <;> simp at there
  rename_i here entry resolved
  subst there
  refine ⟨here, resolved, ?_⟩
  unfold resolve at resolved
  split at resolved
  · simp at resolved
  · exact resolved

/-- Names before one that leads somewhere lead to a directory. -/
theorem leads_of_follow {tree : Tree} {here : Location} {parts : List Text} {name : Text}
    {place : Place} (found : tree.follow here (parts ++ [name]) = .ok place) :
    ∃ there, tree.follow here parts = .ok (.taken there .directory) := by
  induction parts generalizing here with
  | nil =>
      rw [List.nil_append, follow] at found
      split at found
      · simp at found
      · simp at found
      · rename_i directory
        exact ⟨here, by simp [follow, directory]⟩
  | cons first rest ih =>
      rw [List.cons_append, follow] at found
      split at found
      · simp at found
      · simp at found
      · rename_i directory
        have onward : (first ≠ Path.back → (Text.encode first).length ≤ nameLimit) ∧
            tree.follow (child here first) (rest ++ [name]) = .ok place := by
          by_cases back : first = Path.back
          · exact ⟨fun other => absurd back other, by simpa [back, child] using found⟩
          · by_cases long : nameLimit < (Text.encode first).length
            · simp [back, long] at found
            · exact ⟨fun _ => Nat.not_lt.1 long, by simpa [back, long, child] using found⟩
        obtain ⟨there, reached⟩ := ih onward.2
        refine ⟨there, ?_⟩
        rw [follow_cons_eq directory, reached]
        intro notBack
        refine ⟨onward.1 notBack, fun last absent => ?_⟩
        simp [last, follow, child, notBack, absent] at reached

/-- Where a name leads somewhere, the path before it leads to a directory. -/
theorem look_of_join {tree : Tree} {path : Path} {name : Text} (single : Path.IsComponent name)
    {place : Place} (found : tree.resolve (path.join name) = .ok place) :
    tree.look path = .ok (some .directory) := by
  have joined := path.join_of_isComponent single
  unfold resolve at found
  split at found
  · simp at found
  · rename_i short
    rw [joined] at found short
    obtain ⟨there, reached⟩ := leads_of_follow found
    have shortToo : (Text.encode path.text).length ≤ pathLimit := by
      refine Nat.le_trans (Path.length_text_le (List.prefix_append path.parts [name])) ?_
      exact Nat.max_le.2 ⟨by decide, Nat.not_lt.1 short⟩
    have resolved : tree.resolve path = .ok (.taken there .directory) := by
      unfold resolve
      rw [if_neg (Nat.not_lt.2 shortToo), reached]
    simp [look, resolved]

/-- A path that leads to a directory goes through directories only. -/
theorem look_ancestors {tree : Tree} {path : Path}
    (there : tree.look path = .ok (some .directory)) {above : Path}
    (member : above ∈ path.ancestors) : tree.look above = .ok (some .directory) := by
  obtain ⟨here, resolved, leads⟩ := leads_of_look there
  simp only [Path.ancestors, List.mem_reverse, List.mem_map, List.mem_range] at member
  obtain ⟨count, -, rfl⟩ := member
  rw [← List.take_append_drop count path.parts] at leads
  obtain ⟨between, reached⟩ := leads.before
  have whole : (Text.encode path.text).length ≤ pathLimit := by
    unfold resolve at resolved
    split at resolved
    · simp at resolved
    · omega
  have short : (Text.encode (Path.text ⟨path.absolute, path.parts.take count⟩)).length ≤
      pathLimit := by
    refine Nat.le_trans (Path.length_text_le (List.take_prefix count path.parts)) ?_
    exact Nat.max_le.2 ⟨by decide, whole⟩
  have found : tree.resolve ⟨path.absolute, path.parts.take count⟩ =
      .ok (.taken between .directory) := by
    unfold resolve
    rw [if_neg (Nat.not_lt.2 short)]
    exact reached
  simp [look, found]

end Tree

end TreeGrammar
