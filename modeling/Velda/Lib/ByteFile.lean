import Mathlib

/-! The bytes of a file under writes at an offset and changes of its length. A write
behind the end, or a file made longer, leaves a hole that reads as the fill byte. -/
namespace Velda.Lib

variable {α : Type} (fill : α)

def resize (content : List α) (size : Nat) : List α := (content.rightpad size fill).take size

def writeAt (content : List α) (off : Nat) (data : List α) : List α :=
  resize fill content off ++ data ++ content.drop (off + data.length)

@[simp] lemma resize_length (content : List α) : resize fill content content.length = content := by
  simp [resize]

@[simp] lemma resize_zero (content : List α) : resize fill content 0 = [] := rfl

@[simp] lemma writeAt_length (content data : List α) :
    writeAt fill content content.length data = content ++ data := by
  simp [writeAt]

lemma writeAt_zero {content data : List α} (covers : content.length ≤ data.length) :
    writeAt fill content 0 data = data := by
  simp [writeAt, List.drop_eq_nil_of_le covers]

lemma prefix_writeAt {start content : List α} (h : start <+: content) (data : List α) :
    start ++ data <+: writeAt fill content start.length data := by
  obtain ⟨rest, rfl⟩ := h
  simp [writeAt, resize]

lemma prefix_resize {start content : List α} {size : Nat} (h : start <+: content)
    (fits : start.length ≤ size) : start <+: resize fill content size :=
  List.prefix_take_iff.mpr ⟨h.trans (List.prefix_append _ _), fits⟩

end Velda.Lib
