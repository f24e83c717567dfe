import Mathlib.Data.List.Nodup
import Mathlib.Data.List.Perm.Basic

namespace ConvoScore.Library

/-- A script leads from one version of a schema to the next and creates some objects. -/
structure Script (Version Object : Type*) where
  version : Version
  previous : Option Version
  creates : List Object
  deriving DecidableEq

/-- A schema has the version of the last script that ran and the objects of all of them. -/
structure Schema (Version Object : Type*) where
  version : Option Version
  objects : List Object
  deriving DecidableEq

variable {Version Object : Type*}

/-- The schema after these scripts, the first of which starts from nothing. -/
def Schema.after (scripts : List (Script Version Object)) : Schema Version Object where
  version := scripts.getLast?.map (·.version)
  objects := scripts.flatMap (·.creates)

/-- A script raises when one of its objects is already there. -/
def Schema.apply [DecidableEq Object] (schema : Schema Version Object)
    (script : Script Version Object) : Option (Schema Version Object) :=
  if script.creates.all fun object => decide (object ∉ schema.objects) then
    some ⟨some script.version, schema.objects ++ script.creates⟩
  else none

/-- The scripts that follow each other from a version on. -/
def ascend [DecidableEq Version] (files : List (Script Version Object)) :
    Nat → Option Version → List (Script Version Object)
  | 0, _ => []
  | fuel + 1, version =>
      match files.find? fun script => script.previous = version with
      | none => []
      | some script => script :: ascend files fuel (some script.version)

/-- There are no more scripts to run than there are files. -/
def upgradePath [DecidableEq Version] (files : List (Script Version Object))
    (version : Option Version) : List (Script Version Object) :=
  ascend files files.length version

/-- Each script starts from the version of the one before it. -/
def Linked : Option Version → List (Script Version Object) → Prop
  | _, [] => True
  | version, script :: rest => script.previous = version ∧ Linked (some script.version) rest

def Linked.decide [DecidableEq Version] :
    ∀ (version : Option Version) (scripts : List (Script Version Object)),
      Decidable (Linked version scripts)
  | _, [] => .isTrue trivial
  | _, script :: rest => @instDecidableAnd _ _ _ (Linked.decide (some script.version) rest)

instance [DecidableEq Version] (version : Option Version) (scripts : List (Script Version Object)) :
    Decidable (Linked version scripts) := Linked.decide version scripts

/-- The scripts of a chain follow each other, and no two of them create the same object. -/
structure Chain (scripts : List (Script Version Object)) : Prop where
  linked : Linked none scripts
  distinct : (scripts.map (·.version)).Nodup
  fresh : (scripts.flatMap (·.creates)).Nodup

/-- The path from any part of the chain to its end is the rest of the chain. -/
def Follows (path : Option Version → List (Script Version Object))
    (scripts : List (Script Version Object)) : Prop :=
  ∀ before rest, scripts = before ++ rest → path (Schema.after before).version = rest

variable {start : Option Version} {before rest scripts files : List (Script Version Object)}
  {script : Script Version Object}

/-- The script after others starts from the version of the last of them. -/
theorem Linked.previous (linked : Linked start (before ++ script :: rest)) :
    script.previous = (before.getLast?.map (·.version)).or start := by
  induction before generalizing start with
  | nil => exact linked.1
  | cons first others ih =>
      rw [ih linked.2]
      cases others with
      | nil => rfl
      | cons second others =>
          rw [List.getLast?_cons_cons]
          cases last : (second :: others).getLast? with
          | none => exact absurd (List.getLast?_eq_none_iff.mp last) (List.cons_ne_nil _ _)
          | some script => rfl

/-- The versions that the scripts start from, with the last one, are all versions from the start. -/
theorem Linked.steps (linked : Linked start scripts) :
    scripts.map (·.previous) ++ [(scripts.getLast?.map (·.version)).or start] =
      start :: scripts.map fun script => some script.version := by
  induction scripts generalizing start with
  | nil => rfl
  | cons first others ih =>
      have ends : (((first :: others).getLast?.map (·.version)).or start) =
          (others.getLast?.map (·.version)).or (some first.version) := by
        rw [List.getLast?_cons]
        cases others.getLast? <;> rfl
      rw [ends, List.map_cons, List.cons_append, ih linked.2, linked.1, List.map_cons]

namespace Chain

/-- No version of a chain is started from twice, and nothing starts from the last one. -/
theorem steps_distinct (chain : Chain scripts) :
    (scripts.map (·.previous) ++ [(Schema.after scripts).version]).Nodup := by
  have steps := chain.linked.steps
  rw [Option.or_none] at steps
  have versions : (scripts.map fun script => some script.version).Nodup := by
    have mapped := chain.distinct.map (fun _ _ same => Option.some.inj same : Function.Injective some)
    rwa [List.map_map] at mapped
  rw [Schema.after, steps]
  refine List.nodup_cons.mpr ⟨?_, versions⟩
  intro member
  obtain ⟨script, _, same⟩ := List.mem_map.mp member
  cases same

variable [DecidableEq Version]

/-- The next file after a part of the chain is the next script. -/
theorem find_next (chain : Chain (before ++ script :: rest))
    (listed : files.Perm (before ++ script :: rest)) :
    files.find? (fun found => found.previous = (Schema.after before).version) = some script := by
  have previous : script.previous = (Schema.after before).version := by
    rw [chain.linked.previous, Option.or_none]
    rfl
  have member : script ∈ before ++ script :: rest := List.mem_append_right _ List.mem_cons_self
  cases found : files.find? fun found => found.previous = (Schema.after before).version with
  | none =>
      have missed := List.find?_eq_none.mp found script (listed.mem_iff.mpr member)
      exact absurd (decide_eq_true previous) missed
  | some other =>
      have same : other.previous = (Schema.after before).version := by
        simpa using List.find?_some found
      have stored := listed.mem_iff.mp (List.mem_of_find?_eq_some found)
      have distinct := (List.nodup_append.mp chain.steps_distinct).1
      rw [List.inj_on_of_nodup_map distinct stored member (same.trans previous.symm)]

/-- No file follows the last script. -/
theorem find_last (chain : Chain scripts) (listed : files.Perm scripts) :
    files.find? (fun found => found.previous = (Schema.after scripts).version) = none := by
  rw [List.find?_eq_none]
  intro script member same
  have repeated := (List.nodup_append.mp chain.steps_distinct).2.2 script.previous
    (List.mem_map.mpr ⟨script, listed.mem_iff.mp member, rfl⟩) _ (List.mem_singleton.mpr rfl)
  exact repeated (by simpa using same)

theorem ascend_eq (chain : Chain (before ++ rest)) (listed : files.Perm (before ++ rest))
    {fuel : Nat} (enough : rest.length ≤ fuel) :
    ascend files fuel (Schema.after before).version = rest := by
  induction fuel generalizing before rest with
  | zero => exact (List.length_eq_zero_iff.mp (Nat.le_zero.mp enough)).symm
  | succ fuel ih =>
      cases rest with
      | nil =>
          rw [List.append_nil] at chain listed
          rw [ascend, chain.find_last listed]
      | cons script rest =>
          have next : (Schema.after (before ++ [script])).version = some script.version := by
            simp [Schema.after]
          rw [ascend, chain.find_next listed]
          have joined : before ++ script :: rest = before ++ [script] ++ rest := by simp
          rw [joined] at chain listed
          simp only [← next, ih chain listed (Nat.le_of_succ_le_succ enough)]

/-- Whatever the order of the files is, the path from a part of the chain is the rest of it. -/
theorem upgradePath_follows (chain : Chain scripts) (listed : files.Perm scripts) :
    Follows (upgradePath files) scripts := by
  rintro before rest rfl
  refine chain.ascend_eq listed ?_
  rw [listed.length_eq, List.length_append]
  exact Nat.le_add_left _ _

omit [DecidableEq Version] in
/-- The next script of a chain finds none of its objects. -/
theorem apply_eq [DecidableEq Object] (chain : Chain (before ++ script :: rest)) :
    (Schema.after before).apply script = some (Schema.after (before ++ [script])) := by
  have fresh : script.creates.all (fun object =>
      decide (object ∉ (Schema.after before).objects)) = true := by
    refine List.all_eq_true.mpr fun object created => decide_eq_true ?_
    intro present
    have all := chain.fresh
    rw [List.flatMap_append, List.flatMap_cons] at all
    exact (List.nodup_append.mp all).2.2 object present object (List.mem_append_left _ created) rfl
  rw [Schema.apply, if_pos fresh]
  simp [Schema.after]

end Chain
end ConvoScore.Library
