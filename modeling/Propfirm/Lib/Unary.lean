import Mathlib.Logic.Encodable.Basic
import Mathlib.Logic.Equiv.List

/-!
# Texts in unary

Every value of an encodable type has a text, and so has every value that a family over such a type reaches.
-/

namespace Propfirm

instance encodableChar : Encodable Char :=
  .ofLeftInjection Char.toNat (fun n => some (Char.ofNat n)) fun c => congrArg some (Char.ofNat_toNat c)

instance encodableString : Encodable String :=
  .ofLeftInjection String.toList (fun cs => some (String.ofList cs)) fun _ => congrArg some String.ofList_toList

section Unary

variable {α : Type} [Encodable α]

def unary (a : α) : String := String.ofList (List.replicate (Encodable.encode a) '1')

def ofUnary (s : String) : Option α := Encodable.decode s.length

theorem ofUnary_unary (a : α) : ofUnary (unary a) = some a := by
  simp [ofUnary, unary]

theorem unary_injective : Function.Injective (unary : α → String) := by
  intro a b h
  have hread := congrArg (ofUnary : String → Option α) h
  rw [ofUnary_unary, ofUnary_unary] at hread
  exact Option.some.inj hread

end Unary

section Members

variable {ι ε α : Type} [Encodable ι] (family : ι → Except ε α) {a : α} {text : String}

open scoped Classical in
/-- The place of the value in the family. -/
noncomputable def showMember (a : α) : Except String String :=
  if h : ∃ i, family i = .ok a then .ok (unary h.choose) else .error "unsupported value"

def parseMember (text : String) : Except String α :=
  match (ofUnary text).map family with
  | some (.ok a) => .ok a
  | _ => .error "unsupported text"

variable {family}

theorem exists_showMember {i : ι} (h : family i = .ok a) : ∃ text, showMember family a = .ok text :=
  ⟨_, dif_pos ⟨i, h⟩⟩

theorem parseMember_showMember (h : showMember family a = .ok text) : parseMember family text = .ok a := by
  unfold showMember at h
  split at h
  · rename_i hmember
    obtain rfl := Except.ok.inj h
    rw [parseMember, ofUnary_unary, Option.map_some, hmember.choose_spec]
  · cases h

end Members

end Propfirm
