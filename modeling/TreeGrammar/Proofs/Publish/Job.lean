/-
# TreeGrammar.Proofs.Publish.Job -- what stands where for each file on its way

A file on its way concerns three locations of the directory: its temporary file, its
backup and its target (`Job.places`); what stands there is its `Standing`.  Jobs with
different names have no location in common (`places_disjoint`), so a pass over many
jobs is described job by job: `Over` says how the standing of each of them changes,
and that nothing else does.
-/
import TreeGrammar.Proofs.Publish.Names

set_option autoImplicit false

namespace TreeGrammar.Publish

open TreeGrammar.Tree (child)

/-- What stands at each location. -/
abbrev View := Location → Option Entry

/-- A file on its way: its name and text, the stamp of its temporary file, and whether it
has a backup to go with it. -/
structure Job where
  name : Text
  text : Text
  stamp : Text
  saved : Bool

/-- What stands at the three locations of a job. -/
@[ext]
structure Standing where
  temp : Option Entry
  backup : Option Entry
  target : Option Entry

namespace Job

def temp (job : Job) : Text :=
  tempName job.name job.stamp

def backup (job : Job) : Text :=
  backupName job.name job.stamp

def staged (directory : Path) (job : Job) : Staged where
  temp := tempPath directory job.name job.stamp
  target := directory.join job.name
  backup := if job.saved then some (savedPath directory job.name job.stamp) else none

def places (here : Location) (job : Job) : List Location :=
  [child here job.temp, child here job.backup, child here job.name]

def standing (here : Location) (view : View) (job : Job) : Standing where
  temp := view (child here job.temp)
  backup := view (child here job.backup)
  target := view (child here job.name)

/-- The job is for one of the names and has one of the stamps. -/
structure For (stamps : Nat → Text) (names : List Text) (job : Job) : Prop where
  named : job.name ∈ names
  stamped : ∃ time, job.stamp = stamps time

/-- Nothing at the locations of a job changes. -/
theorem standing_eq {here : Location} {view after : View} {job : Job}
    (same : ∀ location ∈ job.places here, after location = view location) :
    job.standing here after = job.standing here view := by
  simp only [places, List.mem_cons, List.not_mem_nil, or_false, forall_eq_or_imp, forall_eq] at same
  simp only [standing, same]

end Job

/-! ## Jobs apart -/

section Apart

variable {tree : Tree} {directory : Path} {stamps : Nat → Text} {names : List Text}
variable {job other : Job}

theorem single_of_for (fresh : Fresh tree directory stamps names) (isFor : job.For stamps names) :
    Path.IsComponent job.name ∧ '.' ∉ job.stamp ∧ '/' ∉ job.stamp := by
  obtain ⟨time, stamped⟩ := isFor.stamped
  rw [stamped]
  exact ⟨fresh.single _ isFor.named, fresh.plain time⟩

theorem temp_ne_backup : job.temp ≠ other.backup :=
  tempName_ne_backupName _ _ _ _

theorem temp_ne_name (fresh : Fresh tree directory stamps names) (isFor : job.For stamps names)
    (otherFor : other.For stamps names) : job.temp ≠ other.name := by
  obtain ⟨time, stamped⟩ := isFor.stamped
  intro same
  apply (fresh.unused _ isFor.named time).1
  rw [← stamped]
  change job.temp ∈ names
  rw [same]
  exact otherFor.named

theorem backup_ne_name (fresh : Fresh tree directory stamps names) (isFor : job.For stamps names)
    (otherFor : other.For stamps names) : job.backup ≠ other.name := by
  obtain ⟨time, stamped⟩ := isFor.stamped
  intro same
  apply (fresh.unused _ isFor.named time).2
  rw [← stamped]
  change job.backup ∈ names
  rw [same]
  exact otherFor.named

/-- **Jobs for different names** have no location in common. -/
theorem places_disjoint (fresh : Fresh tree directory stamps names) (here : Location)
    (isFor : job.For stamps names) (otherFor : other.For stamps names)
    (different : job.name ≠ other.name) {location : Location} (mine : location ∈ job.places here) :
    location ∉ other.places here := by
  have plain := (single_of_for fresh isFor).2.1
  have otherPlain := (single_of_for fresh otherFor).2.1
  have apart : ∀ name ∈ [job.temp, job.backup, job.name],
      name ∉ [other.temp, other.backup, other.name] := by
    simp only [List.mem_cons, List.not_mem_nil, or_false, forall_eq_or_imp, forall_eq, not_or]
    refine ⟨⟨?_, temp_ne_backup, temp_ne_name fresh isFor otherFor⟩,
      ⟨temp_ne_backup.symm, ?_, backup_ne_name fresh isFor otherFor⟩,
      (temp_ne_name fresh otherFor isFor).symm, (backup_ne_name fresh otherFor isFor).symm,
      different⟩
    · exact fun same => different (tempName_injective plain otherPlain same).1
    · exact fun same => different (backupName_injective plain otherPlain same).1
  intro theirs
  obtain ⟨name, member, rfl⟩ := List.mem_map.1
    (show location ∈ [job.temp, job.backup, job.name].map (child here) from mine)
  obtain ⟨otherName, otherMember, same⟩ := List.mem_map.1
    (show child here name ∈ [other.temp, other.backup, other.name].map (child here) from theirs)
  exact apart name member (Tree.child_injective same ▸ otherMember)

end Apart

/-! ## One location of a job -/

section Update

variable {tree : Tree} {directory : Path} {stamps : Nat → Text} {names : List Text}
variable {job : Job} {here : Location} {view : View} {entry : Option Entry}

theorem standing_update_temp (fresh : Fresh tree directory stamps names)
    (isFor : job.For stamps names) :
    job.standing here (Function.update view (child here job.temp) entry) =
      { job.standing here view with temp := entry } := by
  have backup : child here job.backup ≠ child here job.temp := fun same =>
    temp_ne_backup (Tree.child_injective same).symm
  have target : child here job.name ≠ child here job.temp := fun same =>
    temp_ne_name fresh isFor isFor (Tree.child_injective same).symm
  simp only [Job.standing, Function.update_self, Function.update_of_ne backup,
    Function.update_of_ne target]

theorem standing_update_backup (fresh : Fresh tree directory stamps names)
    (isFor : job.For stamps names) :
    job.standing here (Function.update view (child here job.backup) entry) =
      { job.standing here view with backup := entry } := by
  have temp : child here job.temp ≠ child here job.backup := fun same =>
    temp_ne_backup (Tree.child_injective same)
  have target : child here job.name ≠ child here job.backup := fun same =>
    backup_ne_name fresh isFor isFor (Tree.child_injective same).symm
  simp only [Job.standing, Function.update_self, Function.update_of_ne temp,
    Function.update_of_ne target]

theorem standing_update_target (fresh : Fresh tree directory stamps names)
    (isFor : job.For stamps names) :
    job.standing here (Function.update view (child here job.name) entry) =
      { job.standing here view with target := entry } := by
  have temp : child here job.temp ≠ child here job.name := fun same =>
    temp_ne_name fresh isFor isFor (Tree.child_injective same)
  have backup : child here job.backup ≠ child here job.name := fun same =>
    backup_ne_name fresh isFor isFor (Tree.child_injective same)
  simp only [Job.standing, Function.update_self, Function.update_of_ne temp,
    Function.update_of_ne backup]

/-- A change at a location of the job is none outside of them. -/
theorem update_outside {location place : Location} (outside : location ∉ job.places here)
    (inside : place ∈ job.places here) : Function.update view place entry location =
      view location := by
  refine Function.update_of_ne ?_ _ _
  rintro rfl
  exact outside inside

end Update

/-! ## Many jobs -/

/-- The standing of each job changes as said, and nothing else does. -/
structure Over (here : Location) (jobs : List Job) (change : Job → Standing → Standing → Prop)
    (view after : View) : Prop where
  inside : ∀ job ∈ jobs, change job (job.standing here view) (job.standing here after)
  outside : ∀ location, (∀ job ∈ jobs, location ∉ job.places here) →
    after location = view location

namespace Over

variable {here : Location} {jobs : List Job} {change next : Job → Standing → Standing → Prop}
variable {view between after : View}

theorem refl (same : ∀ job ∈ jobs, change job (job.standing here view) (job.standing here view)) :
    Over here jobs change view view :=
  ⟨same, fun _ _ => rfl⟩

theorem mono (passed : Over here jobs change view after)
    (weaker : ∀ job ∈ jobs, ∀ old new, change job old new → next job old new) :
    Over here jobs next view after :=
  ⟨fun job member => weaker job member _ _ (passed.inside job member), passed.outside⟩

/-- Where no job's standing changes, nothing does. -/
theorem same (passed : Over here jobs (fun _ old new => new = old) view after) : after = view := by
  funext location
  by_cases inside : ∃ job ∈ jobs, location ∈ job.places here
  · obtain ⟨job, member, mine⟩ := inside
    have standing := passed.inside job member
    simp only [Job.standing, Standing.mk.injEq] at standing
    simp only [Job.places, List.mem_cons, List.not_mem_nil, or_false] at mine
    rcases mine with rfl | rfl | rfl
    · exact standing.1
    · exact standing.2.1
    · exact standing.2.2
  · exact passed.outside location fun job member mine => inside ⟨job, member, mine⟩

/-- One pass after the other. -/
theorem comp (first : Over here jobs change view between)
    (second : Over here jobs next between after) :
    Over here jobs (fun job old new => ∃ middle, change job old middle ∧ next job middle new)
      view after :=
  ⟨fun job member => ⟨_, first.inside job member, second.inside job member⟩,
    fun location apart => (second.outside location apart).trans (first.outside location apart)⟩

section Apart

variable {tree : Tree} {directory : Path} {stamps : Nat → Text} {names : List Text} {job : Job}

/-- A job that none of the jobs is for keeps its standing. -/
theorem untouched (fresh : Fresh tree directory stamps names)
    (passed : Over here jobs change view after) (isFor : job.For stamps names)
    (othersFor : ∀ other ∈ jobs, other.For stamps names)
    (different : ∀ other ∈ jobs, job.name ≠ other.name) :
    job.standing here after = job.standing here view :=
  Job.standing_eq fun location mine => passed.outside location fun other member =>
    places_disjoint fresh here isFor (othersFor other member) (different other member) mine

theorem different_of_nodup (distinct : ((job :: jobs).map Job.name).Nodup) :
    ∀ other ∈ jobs, job.name ≠ other.name := by
  rw [List.map_cons, List.nodup_cons] at distinct
  exact fun other member same => distinct.1 (same ▸ List.mem_map_of_mem member)

/-- **One job and then the others.** -/
theorem cons (fresh : Fresh tree directory stamps names)
    (isFor : ∀ each ∈ job :: jobs, each.For stamps names)
    (distinct : ((job :: jobs).map Job.name).Nodup)
    (first : Over here [job] change view between) (rest : Over here jobs change between after) :
    Over here (job :: jobs) change view after := by
  have different := different_of_nodup distinct
  obtain ⟨head, tail⟩ := List.forall_mem_cons.1 isFor
  constructor
  · intro each member
    rcases List.mem_cons.1 member with rfl | later
    · rw [rest.untouched fresh head tail different]
      exact first.inside each (List.mem_singleton_self each)
    · have untouched := first.untouched fresh (tail each later)
        (by simpa using head) (by simpa using (different each later).symm)
      rw [← untouched]
      exact rest.inside each later
  · intro location apart
    rw [rest.outside location fun other member => apart other (List.mem_cons_of_mem _ member)]
    exact first.outside location fun other member => by
      rw [List.mem_singleton.1 member]
      exact apart job List.mem_cons_self

/-- A pass over some of the jobs, told about all of them. -/
theorem widen {taken : List Job} (fresh : Fresh tree directory stamps names)
    (isFor : ∀ each ∈ jobs, each.For stamps names)
    (within : ∀ each ∈ taken, each ∈ jobs) (distinct : (jobs.map Job.name).Nodup)
    (passed : Over here taken change view after) :
    Over here jobs (fun job old new => (job ∈ taken ∧ change job old new) ∨
      (job ∉ taken ∧ new = old)) view after := by
  constructor
  · intro each member
    by_cases isTaken : each ∈ taken
    · exact .inl ⟨isTaken, passed.inside each isTaken⟩
    · refine .inr ⟨isTaken, passed.untouched fresh (isFor each member)
        (fun other otherTaken => isFor other (within other otherTaken)) ?_⟩
      intro other otherTaken same
      have := List.inj_on_of_nodup_map distinct member (within other otherTaken) same
      exact isTaken (this ▸ otherTaken)
  · exact fun location apart => passed.outside location fun other isTaken =>
      apart other (within other isTaken)

end Apart

end Over

end TreeGrammar.Publish
