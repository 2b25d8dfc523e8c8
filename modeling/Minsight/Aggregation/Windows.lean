import Minsight.Aggregation.Key
import Minsight.Ingestion.Cursor

/-! # Windows of the aggregation

`floor_to_window_start` brings its time to UTC and floors it to the window. Only windows of
24 hours are floored; any other width raises.
-/

namespace Minsight

structure FloorsTo (width : ℤ) (f : ℤ → ℤ) : Prop where
  le : ∀ t, f t ≤ t
  lt : ∀ t, t < f t + width
  dvd : ∀ t, width ∣ f t

namespace FloorsTo

variable {width t u : ℤ} {f : ℤ → ℤ}

theorem eq_of_mem (h : FloorsTo width f) (hle : f t ≤ u) (hlt : u < f t + width) : f u = f t := by
  obtain ⟨j, hj⟩ := h.dvd t
  obtain ⟨k, hk⟩ := h.dvd u
  have hu := h.le u
  have hu' := h.lt u
  have hwidth : 0 < width := by omega
  have hjk : j < k + 1 := by
    by_contra hge
    have hmul : width * (k + 1) ≤ width * j :=
      mul_le_mul_of_nonneg_left (not_lt.mp hge) hwidth.le
    rw [mul_add, mul_one] at hmul
    omega
  have hkj : k < j + 1 := by
    by_contra hge
    have hmul : width * (j + 1) ≤ width * k :=
      mul_le_mul_of_nonneg_left (not_lt.mp hge) hwidth.le
    rw [mul_add, mul_one] at hmul
    omega
  rw [hj, hk, show k = j by omega]

theorem idempotent (h : FloorsTo width f) (t : ℤ) : f (f t) = f t := by
  apply h.eq_of_mem le_rfl
  have hlt := h.lt t
  have hle := h.le t
  omega

end FloorsTo

theorem utcDay_floorsTo : FloorsTo (hours 24) fun t => utcDay t * 86400000000 where
  le t := by simp only [utcDay]; omega
  lt t := by simp only [utcDay, hours]; omega
  dvd t := ⟨utcDay t, by simp only [hours]; omega⟩

/-- `floor_to_window_start` of a time as it is written, with its offset from UTC if it has one. -/
def floorTimestamp (ts : Time × Option Time) (windowHours : ℤ) : Except Exn Time :=
  match asNaiveUtc ts with
  | none => .error .overflowError
  | some t => floorToWindowStart t windowHours

/-- The window start `w` of an instant `t`, as every writing of its window is to have it. -/
structure WindowStart (ts : Time × Option Time) (windowHours : ℤ) (t w : Time) : Prop where
  instant : asNaiveUtc ts = some t
  floor : floorTimestamp ts windowHours = .ok w
  le : w ≤ t
  lt : t < w + hours windowHours
  constant : ∀ ts' u, asNaiveUtc ts' = some u → w ≤ u → u < w + hours windowHours →
    floorTimestamp ts' windowHours = .ok w
  agrees : ∀ ts', asNaiveUtc ts' = some t → floorTimestamp ts' windowHours = .ok w
  idempotent : floorTimestamp (w, none) windowHours = .ok w
  /-- An alert of this instant gets the key of the window. -/
  keyed : ∀ (rt : Runtime) (config : AggregationConfig) (hostName userName category : Option String),
    config.windowHours = windowHours →
      ∃ dims, normalizeDimensions rt config hostName userName category t = .ok dims ∧
        dims.windowStart = w

/-- The time is one that `datetime` holds in UTC. -/
def HasInstant : Time × Option Time → Prop
  | (_, none) => True
  | (t, some offset) => minTime ≤ t - offset ∧ t - offset ≤ maxTime

theorem asNaiveUtc_isSome {ts : Time × Option Time} : (asNaiveUtc ts).isSome ↔ HasInstant ts := by
  obtain ⟨t, _ | offset⟩ := ts <;> simp [asNaiveUtc, HasInstant]

theorem floorToWindowStart_ok {t w windowHours : ℤ} :
    floorToWindowStart t windowHours = .ok w ↔
      windowHours = 24 ∧ utcDay t * 86400000000 = w := by
  unfold floorToWindowStart
  split <;> simp_all

/-- The dimensions of an alert in the window that starts at `w`. -/
def dimensionsIn (rt : Runtime) (config : AggregationConfig)
    (hostName userName alertCategory : Option String) (w : Time) : AggregationDimensions :=
  let hostNorm := normalized rt hostName config.unknownHostSentinel
  let userNorm := normalized rt userName config.unknownUserSentinel
  let categoryNorm := rt.lower (strip (orText alertCategory "uncategorized"))
  { windowStart := w, hostNorm, userNorm, categoryNorm
    eventKey := takeText 32 (rt.sha256Hex
      (hostNorm ++ "|" ++ userNorm ++ "|" ++ categoryNorm ++ "|" ++ isoformat w)) }

theorem normalizeDimensions_ok {rt : Runtime} {config : AggregationConfig}
    {hostName userName category : Option String} {t : Time} {dims : AggregationDimensions} :
    normalizeDimensions rt config hostName userName category t = .ok dims ↔
      config.windowHours = 24 ∧
        dims = dimensionsIn rt config hostName userName category (utcDay t * 86400000000) := by
  rw [normalizeDimensions, Tx.except_bind_ok]
  constructor
  · rintro ⟨w, hw, hdims⟩
    obtain ⟨hconfig, rfl⟩ := floorToWindowStart_ok.mp hw
    exact ⟨hconfig, (Except.ok.inj hdims).symm⟩
  · rintro ⟨hconfig, rfl⟩
    exact ⟨_, floorToWindowStart_ok.mpr ⟨hconfig, rfl⟩, rfl⟩

/--
The time is floored to its window, by every writing of it and of the window's other instants, if
and only if the window has 24 hours and the time is one that `datetime` holds in UTC.
-/
theorem window_flooring_iff (ts : Time × Option Time) (windowHours : ℤ) :
    (∃ t w, WindowStart ts windowHours t w) ↔ windowHours = 24 ∧ HasInstant ts := by
  constructor
  · rintro ⟨t, w, h⟩
    have hfloor := h.floor
    simp only [floorTimestamp, h.instant] at hfloor
    exact ⟨(floorToWindowStart_ok.mp hfloor).1, asNaiveUtc_isSome.mp (by simp [h.instant])⟩
  · rintro ⟨rfl, hinstant⟩
    obtain ⟨t, ht⟩ := Option.isSome_iff_exists.mp (asNaiveUtc_isSome.mpr hinstant)
    have hfloor : ∀ ts' u, asNaiveUtc ts' = some u →
        floorTimestamp ts' 24 = .ok (utcDay u * 86400000000) := by
      intro ts' u hu
      simp [floorTimestamp, hu, floorToWindowStart]
    refine ⟨t, utcDay t * 86400000000, ?_⟩
    constructor
    case instant => exact ht
    case floor => exact hfloor ts t ht
    case le => exact utcDay_floorsTo.le t
    case lt => exact utcDay_floorsTo.lt t
    case constant =>
      intro ts' u hu hle hlt
      rw [hfloor ts' u hu]
      exact congrArg Except.ok (utcDay_floorsTo.eq_of_mem hle hlt)
    case agrees => exact fun ts' hu => hfloor ts' t hu
    case idempotent =>
      rw [hfloor _ _ rfl]
      exact congrArg Except.ok (utcDay_floorsTo.idempotent t)
    case keyed =>
      intro rt config hostName userName category hconfig
      exact ⟨_, normalizeDimensions_ok.mpr ⟨hconfig, rfl⟩, rfl⟩

/-- A window of twelve hours raises, at midnight of the first day already. -/
theorem twelve_hour_windows_raise :
    ¬ ∀ ts windowHours, 1 ≤ windowHours → ∃ t w, WindowStart ts windowHours t w := by
  intro h
  obtain ⟨t, w, hw⟩ := h (0, none) 12 (by decide)
  exact nomatch hw.floor

end Minsight
