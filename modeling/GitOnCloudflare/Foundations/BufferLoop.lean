import Mathlib.Data.List.Basic

/-!
# Loops over a buffer

A loop whose body takes an item off the front of a buffer or leaves.  The body
says why the buffer gets shorter, so every such loop ends.  Bodies are compared
one pass at a time.
-/

namespace GitOnCloudflare.Foundations.BufferLoop

universe u v w

/-- One pass of the body: the loop goes on behind an item, or leaves. -/
inductive Pass (Item : Type u) (Exit : Type v) (buf : List UInt8) where
  | push (item : Item) (rest : List UInt8) (shorter : rest.length < buf.length)
  | exit (result : Exit)

variable {Item : Type u} {Exit : Type v}

/-- The items taken and the result the loop leaves with. -/
def run (body : (buf : List UInt8) → Pass Item Exit buf) (buf : List UInt8) :
    List Item × Exit :=
  match body buf with
  | .push item rest _ =>
    let later := run body rest
    (item :: later.1, later.2)
  | .exit result => ([], result)
termination_by buf.length

variable {body : (buf : List UInt8) → Pass Item Exit buf} {buf : List UInt8}

theorem run_push {item : Item} {rest : List UInt8}
    {shorter : rest.length < buf.length}
    (pass : body buf = .push item rest shorter) :
    run body buf = (item :: (run body rest).1, (run body rest).2) := by
  rw [run, pass]

theorem run_exit {result : Exit} (pass : body buf = .exit result) :
    run body buf = ([], result) := by
  rw [run, pass]

/-- The places the loop comes to. -/
inductive Reaches (body : (buf : List UInt8) → Pass Item Exit buf) :
    List UInt8 → List UInt8 → Prop
  | here (buf : List UInt8) : Reaches body buf buf
  | next {buf rest last : List UInt8} {item : Item}
      {shorter : rest.length < buf.length}
      (pass : body buf = .push item rest shorter)
      (later : Reaches body rest last) : Reaches body buf last

/-- A loop that goes on only where another one does comes to no other
places. -/
theorem Reaches.of_push {Item' : Type u} {Exit' : Type w}
    {body' : (buf : List UInt8) → Pass Item' Exit' buf}
    (follows : ∀ {buf : List UInt8} {item : Item} {rest : List UInt8}
      {shorter : rest.length < buf.length},
      body buf = .push item rest shorter →
        ∃ item', body' buf = .push item' rest shorter) {last : List UInt8}
    (reached : Reaches body buf last) : Reaches body' buf last := by
  induction reached with
  | here => exact .here _
  | next pass _ ih =>
    rcases follows pass with ⟨_, pass'⟩
    exact .next pass' ih

end GitOnCloudflare.Foundations.BufferLoop
