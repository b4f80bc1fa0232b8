import Mathlib.Tactic

/-!
# Closing by name

A process that holds an object may close whatever is filed under the name of that object.
This is the object itself or nothing, as long as no object is filed under the name of another
one that is still filed or held.
-/
namespace VlfProto.Platform

variable {F N : Type*} {name name' : F → N} {filed filed' held held' : Set F} {f : F}

/-- What is filed under the name of an object that is filed or held is that object. -/
def Exclusive (name : F → N) (filed held : Set F) : Prop :=
  ∀ f ∈ filed ∪ held, ∀ f' ∈ filed, name f' = name f → f' = f

/-- Objects are dropped, and processes take hold of objects that are filed or held. -/
theorem Exclusive.mono (h : Exclusive name filed held)
    (hname : ∀ f ∈ filed ∪ held, name' f = name f) (hfiled : filed' ⊆ filed)
    (hheld : held' ⊆ filed ∪ held) : Exclusive name' filed' held' := by
  intro f hf f' hf' hsame
  have hold : f ∈ filed ∪ held := by
    rcases hf with hf | hf
    · exact .inl (hfiled hf)
    · exact hheld hf
  apply h f hold f' (hfiled hf')
  rw [← hname f hold, ← hname f' (.inl (hfiled hf')), hsame]

/-- An object is filed whose name no other one has. -/
theorem Exclusive.file (h : Exclusive name filed held)
    (hfree : ∀ f' ∈ filed ∪ held, name f' = name f → f' = f) (hfiled : filed' ⊆ insert f filed)
    (hheld : held' ⊆ insert f (filed ∪ held)) : Exclusive name filed' held' := by
  intro f₁ hf₁ f₂ hf₂ hsame
  have hold : f₁ = f ∨ f₁ ∈ filed ∪ held := by
    rcases hf₁ with hf₁ | hf₁
    · exact (hfiled hf₁).imp_right .inl
    · exact hheld hf₁
  rcases hold with rfl | hold <;> rcases hfiled hf₂ with rfl | hold'
  · rfl
  · exact hfree f₂ (.inl hold') hsame
  · exact (hfree f₁ hold hsame.symm).symm
  · exact h f₁ hold f₂ hold' hsame

end VlfProto.Platform
