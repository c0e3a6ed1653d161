import Himmy.Library.HashChain
import Himmy.Entities.Records

/-! # The audit hash chain

The hash chain over records: each step hashes the predecessor's chain hash with the content hash of
the record. It is a `ChainHash` over the texts that the content hashes are made of, because a content
hash has no colon in it and is not the word of the genesis value. -/

namespace Himmy

variable (D : Digests)

def chainGenesisHash : String := D.sha256 "himmy-audit-chain:genesis"

def chainStep (prevHash leaf : String) : String := D.sha256 (prevHash ++ ":" ++ leaf)

theorem append_colon_inj {a b a' b' : String} (hb : ':' ∉ b.toList) (hb' : ':' ∉ b'.toList)
    (h : a ++ ":" ++ b = a' ++ ":" ++ b') : a = a' ∧ b = b' := by
  have hsplit : ∀ {u v u' v' : List Char}, ':' ∉ v → u ++ ':' :: v = u' ++ ':' :: v' →
      ∀ w, u' = u ++ w → w = [] := by
    intro u v u' v' hv heq w hw
    cases w with
    | nil => rfl
    | cons c w =>
      rw [hw, List.append_assoc, List.append_cancel_left_eq, List.cons_append, List.cons.injEq]
        at heq
      rw [heq.2] at hv
      simp at hv
  have hchars : a.toList ++ ':' :: b.toList = a'.toList ++ ':' :: b'.toList := by
    have htoList := congrArg String.toList h
    simpa [String.toList_append] using htoList
  have ha : a.toList = a'.toList := by
    rcases List.append_eq_append_iff.1 hchars with ⟨w, hw, -⟩ | ⟨w, hw, -⟩
    · rw [hsplit hb hchars w hw, List.append_nil] at hw
      exact hw.symm
    · rw [hsplit hb' hchars.symm w hw, List.append_nil] at hw
      exact hw
  rw [ha] at hchars
  have hbs := List.append_cancel_left hchars
  exact ⟨String.toList_inj.1 ha, String.toList_inj.1 (List.cons.inj hbs).2⟩

theorem colon_notMem_sha256 (s : String) : ':' ∉ (D.sha256 s).toList := by
  intro h
  have hcolon := List.all_eq_true.1 (D.hex s) ':' h
  revert hcolon
  decide

def auditChain : ChainHash String String where
  genesis := chainGenesisHash D
  step prevHash text := chainStep D prevHash (D.sha256 text)
  step_inj h := by
    obtain ⟨hprev, hleaf⟩ := append_colon_inj (colon_notMem_sha256 D _) (colon_notMem_sha256 D _)
      (D.collisionFree h)
    exact ⟨hprev, D.collisionFree hleaf⟩
  step_ne_genesis prevHash text h := by
    have htext : prevHash ++ ":" ++ D.sha256 text = "himmy-audit-chain" ++ ":" ++ "genesis" :=
      D.collisionFree h
    obtain ⟨-, hleaf⟩ := append_colon_inj (colon_notMem_sha256 D _) (by decide) htext
    have hhex := D.hex text
    rw [hleaf] at hhex
    revert hhex
    decide

def chainStepFor (prevHash : String) (record : EntityRecord) : String :=
  chainStep D prevHash (record.contentHash D)

theorem step_auditChain (prevHash : String) (record : EntityRecord) :
    (auditChain D).step prevHash record.contentText = chainStepFor D prevHash record := rfl

end Himmy
