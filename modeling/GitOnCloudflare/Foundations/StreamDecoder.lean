import Mathlib.Data.List.Basic

/-!
# Decoders of streams

What a decoder makes of the first bytes of a stream: it wants more, it is done
and has used some of them, or it has failed.  A stable decoder does not change
its mind when more bytes come in, and is done with the last byte it uses.
-/

namespace GitOnCloudflare.Foundations

universe u v

inductive Decoded (Element : Type u) (Failure : Type v) where
  | more (output : List Element)
  | done (output : List Element) (used : Nat)
  | failed (failure : Failure)
deriving DecidableEq

variable {Element : Type u} {Failure : Type v}

structure StableDecoder (decode : List Element → Decoded Element Failure) :
    Prop where
  nil : decode [] = .more []
  failed : ∀ {sofar failure}, decode sofar = .failed failure →
    ∀ rest, decode (sofar ++ rest) = .failed failure
  done : ∀ {sofar output used}, decode sofar = .done output used →
    ∀ rest, decode (sofar ++ rest) = .done output used
  within : ∀ {sofar output used}, decode sofar = .done output used →
    used ≤ sofar.length
  ends : ∀ {sofar output}, decode sofar = .more output →
    ∀ {rest whole used}, decode (sofar ++ rest) = .done whole used →
      sofar.length < used

namespace StableDecoder

variable {decode : List Element → Decoded Element Failure}

/-- The bytes that are used make the whole stream. -/
theorem take (stable : StableDecoder decode) {sofar output : List Element}
    {used : Nat} (done : decode sofar = .done output used) :
    decode (sofar.take used) = .done output used := by
  have split := List.take_append_drop used sofar
  cases first : decode (sofar.take used) with
  | more part =>
    have later := @ends _ _ _ stable _ _ first (sofar.drop used) _ _
      (by rw [split]; exact done)
    rw [List.length_take] at later
    have within := stable.within done
    omega
  | done part count =>
    have whole := stable.done first (sofar.drop used)
    rw [split, done] at whole
    exact whole.symm
  | failed failure =>
    have whole := stable.failed first (sofar.drop used)
    rw [split, done] at whole
    cases whole

end StableDecoder

end GitOnCloudflare.Foundations
