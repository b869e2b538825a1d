import Mathlib.Data.List.Basic

/-! One session of a transactional server: outside a block every statement commits on its
own, inside a block effects are held back until COMMIT, and an error aborts the block.
Effects are elements of an arbitrary type; the store is the list of persisted effects. -/
namespace AdequateApi.SessionServer

structure Block (ε : Type*) where
  pending : List ε
  aborted : Bool
  deriving DecidableEq, Repr

/-- `ν` names prepared statements. -/
structure Session (ε ν : Type*) where
  block : Option (Block ε)
  prepared : List ν
  deriving DecidableEq, Repr

inductive Command (ε ν : Type*)
  | begin
  | commit
  | rollback
  | data (effects : List ε)
  | prepare (name : ν)
  /-- Any other transaction control: the block it leaves, and what it makes permanent. -/
  | control (after : Option (Block ε)) (persists : List ε)
  deriving DecidableEq, Repr

/-- Statements whose text contains no transaction control. -/
def Command.Plain {ε ν : Type*} : Command ε ν → Prop
  | .data _ | .prepare _ => True
  | _ => False

variable {ε ν : Type*}

instance : DecidablePred (Command.Plain (ε := ε) (ν := ν))
  | .data _ | .prepare _ => .isTrue trivial
  | .begin | .commit | .rollback | .control .. => .isFalse id

namespace Session

def fresh : Session ε ν := ⟨none, []⟩

/-- The session after a command the server carries out, and the effects it persists. -/
def execute (s : Session ε ν) : Command ε ν → Session ε ν × List ε
  | .begin =>
      match s.block with
      | none => ({ s with block := some ⟨[], false⟩ }, [])
      | some _ => (s, [])
  | .commit =>
      match s.block with
      | none => (s, [])
      | some b => ({ s with block := none }, if b.aborted then [] else b.pending)
  | .rollback => ({ s with block := none }, [])
  | .data effects =>
      match s.block with
      | none => (s, effects)
      | some b => ({ s with block := some { b with pending := b.pending ++ effects } }, [])
  | .prepare name => ({ s with prepared := name :: s.prepared }, [])
  | .control after persists => ({ s with block := after }, persists)

@[simp] theorem execute_commit_block (s : Session ε ν) : (s.execute .commit).1.block = none := by
  cases hb : s.block <;> simp [execute, hb]

@[simp] theorem execute_rollback_block (s : Session ε ν) :
    (s.execute .rollback).1.block = none := rfl

@[simp] theorem execute_rollback_persists (s : Session ε ν) : (s.execute .rollback).2 = [] := rfl

/-- What a command persists and the block it leaves depend on the block alone. -/
theorem execute_block_congr {s t : Session ε ν} (h : s.block = t.block) (cmd : Command ε ν) :
    (s.execute cmd).2 = (t.execute cmd).2 ∧ (s.execute cmd).1.block = (t.execute cmd).1.block := by
  cases cmd <;> simp only [execute, h, and_self] <;> cases hb : t.block <;> simp [h, hb]

/-- A plain statement outside a block stays outside. -/
theorem execute_plain_block {s : Session ε ν} {cmd : Command ε ν} (hp : cmd.Plain)
    (hs : s.block = none) : (s.execute cmd).1.block = none := by
  cases cmd <;> simp_all [Command.Plain, execute]

theorem execute_begin_block {s : Session ε ν} (hs : s.block = none) :
    s.execute .begin = ({ s with block := some ⟨[], false⟩ }, []) := by
  simp [execute, hs]

/-- Outside a block the effects of a statement persist at once. -/
theorem execute_data_outside {s : Session ε ν} (hs : s.block = none) (effects : List ε) :
    s.execute (.data effects) = (s, effects) := by
  simp [execute, hs]

/-- Inside a block they are only added to it. -/
theorem execute_data_inside {s : Session ε ν} {b : Block ε} (hs : s.block = some b)
    (effects : List ε) :
    s.execute (.data effects) =
      ({ s with block := some { b with pending := b.pending ++ effects } }, []) := by
  simp [execute, hs]

theorem execute_commit_outside {s : Session ε ν} (hs : s.block = none) :
    s.execute .commit = (s, []) := by
  simp [execute, hs]

theorem execute_commit_inside {s : Session ε ν} {pending : List ε}
    (hs : s.block = some ⟨pending, false⟩) :
    s.execute .commit = ({ s with block := none }, pending) := by
  simp [execute, hs]

end Session
end AdequateApi.SessionServer
