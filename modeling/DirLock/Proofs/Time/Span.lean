import DirLock.Time.Span

/-!
# Spans and whole milliseconds

A span of so many milliseconds has exactly these, and whole milliseconds are the nanoseconds divided. In a
program the milliseconds of a span are counted in a word of 128 bits and the nanoseconds of one made from
milliseconds in a word of 32 bits; both words are wide enough.
-/

namespace DirLock.Time.Span

variable {span : Span} {millis : UInt64}

/-- Whether the nanoseconds are below one second. -/
def Proper (span : Span) : Prop := span.nanos < 1000000000

instance (span : Span) : Decidable span.Proper := inferInstanceAs (Decidable (span.nanos < 1000000000))

@[simp]
theorem toNat_seconds_ofMillis : (ofMillis millis).seconds.toNat = millis.toNat / 1000 :=
  UInt64.toNat_div _ _

@[simp]
theorem nanos_ofMillis : (ofMillis millis).nanos = millis.toNat % 1000 * 1000000 :=
  congrArg (· * 1000000) (UInt64.toNat_mod _ _)

theorem proper_ofMillis (millis : UInt64) : (ofMillis millis).Proper := by
  rw [Proper, nanos_ofMillis]
  omega

theorem toNanos_ofMillis (millis : UInt64) : (ofMillis millis).toNanos = millis.toNat * 1000000 := by
  rw [toNanos, toNat_seconds_ofMillis, nanos_ofMillis]
  omega

theorem toMillis_eq (span : Span) : span.toMillis = span.toNanos / 1000000 := by
  rw [toMillis, toNanos]
  omega

theorem toMillis_ofMillis (millis : UInt64) : (ofMillis millis).toMillis = millis.toNat := by
  rw [toMillis_eq, toNanos_ofMillis]
  omega

/-! ## Words -/

/-- The whole milliseconds, counted in a word of 128 bits. -/
def millisWord (span : Span) : BitVec 128 :=
  BitVec.ofNat 128 span.seconds.toNat * 1000#128 + BitVec.ofNat 128 (span.nanos / 1000000)

/-- The nanoseconds of a span of so many milliseconds, counted in a word of 32 bits. -/
def nanosWord (millis : UInt64) : UInt32 := (millis % 1000).toUInt32 * 1000000

theorem toNat_millisWord (h : span.Proper) : span.millisWord.toNat = span.toMillis := by
  have hseconds := span.seconds.toNat_lt
  rw [Proper] at h
  simp only [millisWord, toMillis, BitVec.toNat_add, BitVec.toNat_mul, BitVec.toNat_ofNat]
  omega

theorem toNat_nanosWord (millis : UInt64) : (nanosWord millis).toNat = (ofMillis millis).nanos := by
  have hrest : (millis % 1000).toNat = millis.toNat % 1000 := UInt64.toNat_mod _ _
  have hmillion : (1000000 : UInt32).toNat = 1000000 := rfl
  rw [nanosWord, nanos_ofMillis, UInt32.toNat_mul, UInt64.toNat_toUInt32, hrest, hmillion]
  omega

end DirLock.Time.Span
