import Mathlib.Data.List.Basic
import ApiClient.Command.FileSystem

/-! What an operation on files leaves as it was.

Creating directories only adds to a file system. Writing a file changes one entry and moves no
directory, so paths lead where they led before, and the file that was written is the file that
is read.
-/

set_option autoImplicit false

namespace ApiClient.Command

namespace FileSystem

@[simp]
theorem entry?_root (system : FileSystem) : system.entry? [] = some .directory :=
  if_pos rfl

theorem entry?_of_ne {location : List String} (below : location ≠ []) (system : FileSystem) :
    system.entry? location = system.entries.lookup location :=
  if_neg below

theorem lookup_filter_of_ne {location other : List String} (apart : other ≠ location)
    (entries : List (List String × Entry)) :
    (entries.filter (·.1 != location)).lookup other = entries.lookup other := by
  induction entries with
  | nil => rfl
  | cons first rest ih =>
    obtain ⟨place, entry⟩ := first
    by_cases here : place = location
    · subst here
      have gone : (other == place) = false := beq_false_of_ne apart
      simp only [List.filter_cons, bne_self_eq_false, Bool.false_eq_true, if_false,
        List.lookup_cons, gone, ih]
    · simp only [List.filter_cons, bne_iff_ne.2 here, List.lookup_cons, ih, if_true]

theorem entry?_put_self {location : List String} (below : location ≠ []) (system : FileSystem)
    (entry : Entry) : entry? (system.put location entry) location = some entry := by
  have gone : (system.entries.filter (·.1 != location)).lookup location = none := by
    rw [List.lookup_eq_none_iff]
    intro found member
    exact bne_iff_ne.2 (bne_iff_ne.1 (List.mem_filter.1 member).2).symm
  rw [entry?_of_ne below, put, List.lookup_append, gone, Option.none_or, List.lookup_cons_self]

theorem entry?_put_of_ne {location other : List String} (apart : other ≠ location)
    (system : FileSystem) (entry : Entry) :
    entry? (system.put location entry) other = system.entry? other := by
  by_cases root : other = []
  · rw [root, entry?_root, entry?_root]
  · rw [entry?_of_ne root, entry?_of_ne root, put, List.lookup_append,
      lookup_filter_of_ne apart, List.lookup_cons, beq_false_of_ne apart]
    simp

end FileSystem

/-- Nothing that was there has changed, and what is new are directories. -/
structure Extends (before after : FileSystem) : Prop where
  kept : ∀ location entry, before.entry? location = some entry →
    after.entry? location = some entry
  fresh : ∀ location entry, before.entry? location = none →
    after.entry? location = some entry → entry = .directory

namespace Extends

theorem refl (system : FileSystem) : Extends system system where
  kept _ _ found := found
  fresh _ _ missing found := by
    rw [missing] at found
    cases found

theorem trans {before middle after : FileSystem} (first : Extends before middle)
    (second : Extends middle after) : Extends before after where
  kept location entry found := second.kept location entry (first.kept location entry found)
  fresh location entry missing found := by
    -- what is there in the end was created in one of the two steps
    cases between : middle.entry? location with
    | none => exact second.fresh location entry between found
    | some other =>
      rw [second.kept location other between] at found
      cases found
      exact first.fresh location entry missing between

theorem put_directory {system : FileSystem} {location : List String} (below : location ≠ [])
    (missing : system.entry? location = none) :
    Extends system (system.put location .directory) where
  kept other entry found := by
    have apart : other ≠ location := fun here => by
      rw [here, missing] at found
      cases found
    rw [FileSystem.entry?_put_of_ne apart]
    exact found
  fresh other entry absent found := by
    by_cases here : other = location
    · rw [here, FileSystem.entry?_put_self below] at found
      cases found
      rfl
    · rw [FileSystem.entry?_put_of_ne here, absent] at found
      cases found

theorem createAll (system : FileSystem) (here names : List String) :
    Extends system (system.createAll here names).2 := by
  -- the system changes from name to name, so it is general in the induction
  induction names generalizing system here with
  | nil => exact .refl system
  | cons name rest ih =>
    rw [FileSystem.createAll]
    split
    · exact ih system here.dropLast
    · dsimp only
      split
      · exact ih system (here ++ [name])
      · exact .refl system
      · next missing =>
        exact (put_directory (by simp) missing).trans (ih _ (here ++ [name]))

theorem createDirectories (system : FileSystem) (path : String) :
    Extends system (system.createDirectories path).2 :=
  createAll system _ _

theorem createParent (system : FileSystem) (path : String) :
    Extends system (system.createParent path).2 := by
  unfold FileSystem.createParent
  split
  · exact .refl system
  · exact .createDirectories system _

end Extends

namespace FileSystem

end FileSystem

end ApiClient.Command
