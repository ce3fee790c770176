import Mathlib.Logic.Function.Basic
import Mathlib.Data.List.Basic

/-! # Object stores with and without versions

A bucket is a map from keys to objects, or, with versioning, from keys to histories.
Writing adds a version under an id that was not in use; deleting removes the object,
removes the version it names, or adds a marker.  The lemmas say when a write followed
by a delete of what it wrote restores the bucket. -/

namespace ObjectStore

/-- One entry of a history, newest first; without an object it is a delete marker. -/
structure Version (V O : Type) where
  id : V
  object : Option O

inductive Bucket (K V O : Type) where
  | unversioned (objects : K → Option O)
  | versioned (versions : K → List (Version V O))

structure Ids (V : Type) where
  next : List V → V
  fresh : ∀ used, next used ∉ used

namespace Bucket

variable {K V O : Type} [DecidableEq K] [DecidableEq V] (ids : Ids V) (k : K) (o : O)

/-- Writes an object, and the id of the version it became. -/
def put : Bucket K V O → Bucket K V O × Option V
  | unversioned objects => (unversioned (Function.update objects k (some o)), none)
  | versioned versions =>
    let id := ids.next ((versions k).map (·.id))
    (versioned (Function.update versions k (⟨id, some o⟩ :: versions k)), some id)

/-- Deletes an object, or the version named. -/
def delete (version : Option V) : Bucket K V O → Bucket K V O
  | unversioned objects =>
    match version with
    | none => unversioned (Function.update objects k none)
    -- there is no such version
    | some _ => unversioned objects
  | versioned versions =>
    match version with
    | none =>
      let id := ids.next ((versions k).map (·.id))
      versioned (Function.update versions k (⟨id, none⟩ :: versions k))
    | some v => versioned (Function.update versions k ((versions k).filter (·.id ≠ v)))

/-- Whether the bucket holds exactly `held` under the key and has no history. -/
def Holds (held : Option O) : Bucket K V O → Prop
  | unversioned objects => objects k = held
  | versioned _ => False

omit [DecidableEq V] in
/-- Writing changes the bucket, unless it writes what is there. -/
theorem put_eq_self_iff (s : Bucket K V O) : (s.put ids k o).1 = s ↔ s.Holds k (some o) := by
  cases s with
  | unversioned objects =>
    simp only [put, Holds, unversioned.injEq]
    rw [Function.update_eq_self_iff]
    exact eq_comm
  | versioned versions =>
    simp only [put, Holds, versioned.injEq, Function.update_eq_self_iff]
    constructor
    · intro h
      exact absurd (congrArg List.length h) (by simp)
    · exact False.elim

/-- Deleting what was just written restores a history, but empties a plain key. -/
theorem delete_put_eq_self_iff (s : Bucket K V O) :
    (s.put ids k o).1.delete ids k (s.put ids k o).2 = s ↔
      (∃ versions, s = versioned versions) ∨ s.Holds k none := by
  cases s with
  | unversioned objects =>
    simp only [put, delete, Holds, Function.update_idem, unversioned.injEq,
      Function.update_eq_self_iff]
    constructor
    · exact fun h => .inr h.symm
    · rintro (⟨_, ⟨⟩⟩ | h)
      exact h.symm
  | versioned versions =>
    simp only [put, delete, Function.update_self, Function.update_idem, versioned.injEq,
      Function.update_eq_self_iff]
    refine ⟨fun _ => .inl ⟨versions, rfl⟩, fun _ => ?_⟩
    -- the id just handed out is on none of the older versions
    have hold : ∀ v ∈ versions k, v.id ≠ ids.next ((versions k).map (·.id)) := by
      intro v hv hid
      refine ids.fresh ((versions k).map (·.id)) ?_
      rw [← hid]
      exact List.mem_map_of_mem hv
    simpa using hold

end Bucket

end ObjectStore
