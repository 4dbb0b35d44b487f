import DirLock.Config.Basic
import DirLock.Proofs.Time.Span

/-!
# Setting the delay

A delay is set as any span and kept as whole milliseconds, so the span that comes back is the one that was
set rounded down, unless that would be nothing or more than fits. Setting what came back changes nothing.
-/

namespace DirLock.Config

open Time (Span)

variable {config : Config} {span : Span}

theorem toNat_withDelay (config : Config) (span : Span) :
    (config.withDelay span).waitDelay.toNat = max 1 (min span.toMillis (UInt64.size - 1)) := by
  refine UInt64.toNat_ofNat_of_lt' ?_
  have hsize : UInt64.size = 18446744073709551616 := rfl
  omega

theorem one_le_withDelay (config : Config) (span : Span) : 1 ≤ (config.withDelay span).waitDelay.toNat := by
  rw [toNat_withDelay]
  exact Nat.le_max_left _ _

theorem toNanos_delay_withDelay (config : Config) (span : Span) :
    (config.withDelay span).delay.toNanos = max 1 (min span.toMillis (UInt64.size - 1)) * 1000000 := by
  rw [delay, Span.toNanos_ofMillis, toNat_withDelay]

theorem withDelay_delay (h : 1 ≤ config.waitDelay.toNat) : config.withDelay config.delay = config := by
  have hlimit := config.waitDelay.toNat_lt
  have hkept : (config.withDelay config.delay).waitDelay = config.waitDelay := by
    apply UInt64.toNat_inj.1
    rw [toNat_withDelay, delay, Span.toMillis_ofMillis, UInt64.size]
    omega
  exact congrArg (fun millis => { config with waitDelay := millis }) hkept

theorem delay_withDelay_eq {millis : UInt64} (h : max 1 (min span.toMillis (UInt64.size - 1)) = millis.toNat) :
    (config.withDelay span).delay = Span.ofMillis millis := by
  rw [delay, UInt64.toNat_inj.1 ((toNat_withDelay config span).trans h)]

/-- What comes back of a span that was set: its whole milliseconds, but at least one, and no more than fit. -/
structure Rounds (span back : Span) : Prop where
  short : span.toNanos < 1000000 → back = ⟨0, 1000000⟩
  long : UInt64.size ≤ span.toMillis → back = ⟨18446744073709551, 615000000⟩
  floor : 1000000 ≤ span.toNanos → span.toMillis < UInt64.size →
    back.toNanos ≤ span.toNanos ∧ span.toNanos < back.toNanos + 1000000

theorem rounds_withDelay (config : Config) (span : Span) : Rounds span (config.withDelay span).delay := by
  have hback := toNanos_delay_withDelay config span
  have hmillis := span.toMillis_eq
  have hsize : UInt64.size = 18446744073709551616 := rfl
  constructor
  case short =>
    intro hshort
    exact @delay_withDelay_eq config span 1 (show _ = 1 by omega)
  case long =>
    intro hlong
    exact @delay_withDelay_eq config span 18446744073709551615 (show _ = 18446744073709551615 by omega)
  case floor =>
    intro hlong hfits
    omega

/-- Nothing is lost on the way from a span to the setting and back for want of bits. -/
structure FitsWords (config : Config) (span : Span) : Prop where
  millis : span.millisWord.toNat = span.toMillis
  clamped : (config.withDelay span).waitDelay.toNat = max 1 (min span.toMillis (UInt64.size - 1))
  nanos : (Span.nanosWord (config.withDelay span).waitDelay).toNat = (config.withDelay span).delay.nanos

/-- Setting a delay rounds it to whole milliseconds within bounds and changes nothing else. It keeps the order of
spans, and changes neither a delay that was set before nor settings whose delay is not zero. -/
theorem withDelay_rounds_down (config : Config) (span : Span) (hspan : span.Proper) :
    Rounds span (config.withDelay span).delay ∧ (config.withDelay span).delay.Proper ∧
      (config.withDelay span).scratch = config.scratch ∧
      (∀ longer : Span, span.toNanos ≤ longer.toNanos →
        (config.withDelay span).delay.toNanos ≤ (config.withDelay longer).delay.toNanos) ∧
      (∀ other : Config, (other.withDelay (config.withDelay span).delay).delay = (config.withDelay span).delay) ∧
      (1 ≤ config.waitDelay.toNat → config.withDelay config.delay = config) ∧ FitsWords config span := by
  refine ⟨rounds_withDelay config span, Span.proper_ofMillis _, rfl, fun longer hle => ?_, fun other => ?_,
    withDelay_delay, Span.toNat_millisWord hspan, toNat_withDelay config span, Span.toNat_nanosWord _⟩
  · rw [toNanos_delay_withDelay, toNanos_delay_withDelay, span.toMillis_eq, longer.toMillis_eq]
    omega
  · -- The delay that is kept does not depend on the settings it is kept in.
    calc (other.withDelay (config.withDelay span).delay).delay
      _ = ((config.withDelay span).withDelay (config.withDelay span).delay).delay := rfl
      _ = (config.withDelay span).delay := congrArg delay (withDelay_delay (one_le_withDelay config span))

/-- The first span of which the milliseconds do not fit. -/
theorem withDelay_rounds_down_too_long : Span.Proper ⟨18446744073709551, 616000000⟩ ∧
    (Config.default.withDelay ⟨18446744073709551, 616000000⟩).delay = ⟨18446744073709551, 615000000⟩ := by
  have hproper : Span.Proper ⟨18446744073709551, 616000000⟩ := by decide
  exact ⟨hproper, (withDelay_rounds_down .default _ hproper).1.long (by decide)⟩

end DirLock.Config
