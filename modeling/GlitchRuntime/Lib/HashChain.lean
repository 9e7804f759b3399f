import Mathlib

/-! # Blocks linked by hashes

Every block names the hash of the one before it, and the first a default. Where no two different
blocks share a hash, the last hash stands for all of the blocks.
-/

namespace GlitchRuntime.Lib

variable {Block Hash : Type*} {hash parent : Block → Hash} {start : Hash}

/-- Blocks from the oldest on, each of which names the hash of the one before it. -/
inductive Linked (hash parent : Block → Hash) (start : Hash) : List Block → Prop
  | nil : Linked hash parent start []
  | snoc {blocks : List Block} {block : Block} (before : Linked hash parent start blocks)
      (names : parent block = (blocks.getLast?.map hash).getD start) :
      Linked hash parent start (blocks ++ [block])

namespace Linked

/-- What comes before the last block is linked, and the last block names it. -/
theorem of_snoc {blocks : List Block} {block : Block}
    (linked : Linked hash parent start (blocks ++ [block])) :
    Linked hash parent start blocks ∧ parent block = (blocks.getLast?.map hash).getD start := by
  generalize whole : blocks ++ [block] = chain at linked
  cases linked with
  | nil => simp at whole
  | snoc before names =>
    obtain ⟨rfl, rfl⟩ := List.append_singleton_inj.mp whole
    exact ⟨before, names⟩

/-- Two linked lists of one length with one last hash are the same, unless their blocks collide. -/
theorem eq_of_last_hash {first second : List Block} (left : Linked hash parent start first)
    (right : Linked hash parent start second) (length : first.length = second.length)
    (last : first.getLast?.map hash = second.getLast?.map hash)
    (apart : ∀ one ∈ first, ∀ other ∈ second, hash one = hash other → one = other) :
    first = second := by
  induction left generalizing second with
  | nil => exact (List.length_eq_zero_iff.mp length.symm).symm
  | @snoc blocks block before names ih =>
    rcases List.eq_nil_or_concat' second with rfl | ⟨others, other, rfl⟩
    · simp at length
    · obtain ⟨behind, named⟩ := right.of_snoc
      have heads : hash block = hash other := by simpa using last
      have same : block = other := apart block (by simp) other (by simp) heads
      subst same
      have shorter : blocks.length = others.length := by simpa using length
      have tails : blocks.getLast?.map hash = others.getLast?.map hash := by
        rcases List.eq_nil_or_concat' blocks with rfl | ⟨front, tip, rfl⟩
        · rw [List.length_eq_zero_iff.mp shorter.symm]
        · rcases List.eq_nil_or_concat' others with rfl | ⟨rear, bottom, rfl⟩
          · simp at shorter
          · have link := names.symm.trans named
            simpa using link
      rw [ih behind shorter tails fun one inside other member =>
        apart one (List.mem_append_left _ inside) other (List.mem_append_left _ member)]

end Linked

end GlitchRuntime.Lib
