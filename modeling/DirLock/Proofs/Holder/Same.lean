import DirLock.Lock.Nonce
import DirLock.Proofs.Holder.RoundTrip

/-!
# Records of one holder at two times

Two runs that claim a lock at different times write records that differ in nothing but the time of the
claim. Such a record is no held marker: it is longer than a nonce.
-/

namespace DirLock.Holder

/-- Both contents are records, and they differ in nothing but the time of the claim. -/
def SameRecord (content content' : List UInt8) : Prop :=
  ∃ (holder : Holder) (time time' : Time.Instant),
    content = Text.utf8Encode ({ holder with createdAt := time } : Holder).render ∧
    content' = Text.utf8Encode ({ holder with createdAt := time' } : Holder).render

theorem length_le_utf8Encode (text : List Char) : text.length ≤ (Text.utf8Encode text).length := by
  induction text with
  | nil => exact Nat.zero_le _
  | cons c text ih =>
    have hone : 1 ≤ (String.utf8EncodeChar c).length := by
      rw [String.length_utf8EncodeChar]
      exact c.utf8Size_pos
    rw [show Text.utf8Encode (c :: text) = String.utf8EncodeChar c ++ Text.utf8Encode text from rfl,
      List.length_append, List.length_cons]
    omega

theorem length_render (holder : Holder) : 20 < holder.render.length := by
  have howner : (Json.renderString ['o', 'w', 'n', 'e', 'r']).length = 7 := by decide
  have hcreated : (Json.renderString ['c', 'r', 'e', 'a', 't', 'e', 'd', '_', 'a', 't']).length = 12 := by
    decide
  rw [render_eq, membersOf]
  cases holder.pid
  · simp [Json.renderObject, howner, hcreated]
    omega
  · simp [Json.renderObject, howner]
    omega

theorem render_ne_nonce (holder : Holder) (nonce : Nonce) :
    Text.utf8Encode holder.render ≠ nonce.bytes := by
  intro heq
  have hlong := Nat.lt_of_lt_of_le (length_render holder) (length_le_utf8Encode _)
  rw [heq, nonce.length_eq] at hlong
  exact Nat.lt_irrefl _ hlong

end DirLock.Holder
