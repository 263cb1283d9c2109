import TgWsProxy.Lib.Collect
import TgWsProxy.World

set_option relaxedAutoImplicit false
set_option autoImplicit false

/-!
# The connection limit of `limits.rs`

The cap on concurrent connections is computed once, from the process's file-descriptor limit, with
saturating arithmetic. What it leaves to connections is exact as long as it is not raised to its
floor.

## Main definitions

* `TgWsProxy.autoMaxConnections` — the cap.
* `TgWsProxy.Config.dcRedirects`, `dcRedirectMap`, `dcBuckets` — the DCs of the direct pool.
* `TgWsProxy.FloorRaises` — the budget is too tight, and the cap is its floor.

## Main results

* `TgWsProxy.enumerates_dcRedirects`, `dcTargetIp_eq` — the map, its entries and the lookup of
  routing agree.
* `TgWsProxy.autoMaxConnections_fits` — the listener, the reserved pool and a full house of
  connections are within the limit.
-/

namespace TgWsProxy

/-! ## `usize` -/

/-- `usize::MAX` on a 64-bit target. -/
def usizeMax : ℕ := 2 ^ 64 - 1

/-- `usize::saturating_add`. -/
def saturatingAdd (a b : ℕ) : ℕ := min (a + b) usizeMax

/-- `usize::saturating_mul`. -/
def saturatingMul (a b : ℕ) : ℕ := min (a * b) usizeMax

/-! ## The cap -/

/-- `UNLIMITED_MAX_CONNECTIONS`. -/
def unlimitedMaxConnections : ℕ := 512

/-- `RUNTIME_RESERVED_FDS`. -/
def runtimeReservedFds : ℕ := 32

/-- `FDS_PER_CONNECTION`. -/
def fdsPerConnection : ℕ := 2

/-- `FDS_PER_POOL_SLOT`. -/
def fdsPerPoolSlot : ℕ := 2

/-- `MIN_MAX_CONNECTIONS`. -/
def minMaxConnections : ℕ := 4

/-- The descriptors that `auto_max_connections` sets aside. -/
def reservedFds (poolSize dcBuckets : ℕ) : ℕ :=
  let poolFds := saturatingMul (saturatingMul poolSize dcBuckets) fdsPerPoolSlot
  saturatingAdd (saturatingAdd 1 poolFds) runtimeReservedFds

/-- `auto_max_connections`. Subtraction of natural numbers saturates as `saturating_sub` does. -/
def autoMaxConnections (fdLimit poolSize dcBuckets : ℕ) : ℕ :=
  if fdLimit = usizeMax then unlimitedMaxConnections
  else max ((fdLimit - reservedFds poolSize dcBuckets) / fdsPerConnection) minMaxConnections

/-- What is left for connections is below the floor, and the cap is raised to it. -/
def FloorRaises (fdLimit poolSize dcBuckets : ℕ) : Prop :=
  (fdLimit - reservedFds poolSize dcBuckets) / fdsPerConnection < minMaxConnections

/-- Collecting into a `HashMap`: the last entry for a key wins. -/
def collectLast {α : Type} : List (ℕ × α) → List (ℕ × α)
  | [] => []
  | e :: es => if e.1 ∈ es.map Prod.fst then collectLast es else e :: collectLast es

/-- `Config::dc_redirects`, in one of the orders of the map. -/
def Config.dcRedirects (cfg : Config) : List (ℕ × Host) := collectLast cfg.dcIp

/-- `Config::dc_redirects`, as a map. -/
def Config.dcRedirectMap (cfg : Config) : ℕ → Option Host := Collect.collect cfg.dcIp

/-- `dc_buckets` of `main`: non-media and media for each DC. -/
def Config.dcBuckets (cfg : Config) : ℕ := cfg.dcRedirects.length * 2

/-! ## The map of the DCs -/

theorem mem_keys_collectLast {α : Type} (es : List (ℕ × α)) (dc : ℕ) :
    dc ∈ (collectLast es).map Prod.fst ↔ dc ∈ es.map Prod.fst := by
  induction es with
  | nil => rfl
  | cons e es ih =>
    rw [collectLast]
    split_ifs with hlater
    · rw [ih, List.map_cons, List.mem_cons]
      refine ⟨.inr, ?_⟩
      rintro (rfl | h)
      · exact hlater
      · exact h
    · rw [List.map_cons, List.map_cons, List.mem_cons, List.mem_cons, ih]

theorem nodup_keys_collectLast {α : Type} (es : List (ℕ × α)) :
    ((collectLast es).map Prod.fst).Nodup := by
  induction es with
  | nil => exact List.nodup_nil
  | cons e es ih =>
    rw [collectLast]
    split_ifs with hlater
    · exact ih
    · rw [List.map_cons, List.nodup_cons, mem_keys_collectLast]
      exact ⟨hlater, ih⟩

theorem mem_collectLast_iff {α : Type} {es : List (ℕ × α)} {dc : ℕ} {a : α} :
    (dc, a) ∈ collectLast es ↔
      ∃ before after, es = before ++ (dc, a) :: after ∧ dc ∉ after.map Prod.fst := by
  induction es with
  | nil => simp [collectLast]
  | cons e es ih =>
    constructor
    · intro h
      rw [collectLast] at h
      split_ifs at h with hlater
      · obtain ⟨before, after, rfl, hafter⟩ := ih.mp h
        exact ⟨e :: before, after, rfl, hafter⟩
      · rcases List.mem_cons.mp h with rfl | h
        · exact ⟨[], es, rfl, hlater⟩
        · obtain ⟨before, after, rfl, hafter⟩ := ih.mp h
          exact ⟨e :: before, after, rfl, hafter⟩
    · rintro ⟨before, after, hes, hafter⟩
      rw [collectLast]
      cases before with
      | nil =>
        cases hes
        rw [if_neg hafter]
        exact List.mem_cons_self
      | cons e' before =>
        obtain ⟨-, rfl⟩ := List.cons_eq_cons.mp hes
        have hmem := ih.mpr ⟨before, after, rfl, hafter⟩
        split_ifs
        · exact hmem
        · exact List.mem_cons_of_mem e hmem

/-- **The map and its entries.** The list has what `collect` leaves in the map, each DC once. -/
theorem enumerates_dcRedirects (cfg : Config) :
    Collect.Enumerates cfg.dcRedirects cfg.dcRedirectMap where
  nodup := nodup_keys_collectLast cfg.dcIp
  mem_iff dc ip := by
    rw [Config.dcRedirectMap, ← Collect.findLast_eq_collect, Collect.findLast_eq_some_iff]
    exact mem_collectLast_iff

/-- The scan of `dc_target_ip` finds what the map has. -/
theorem dcTargetIp_eq (cfg : Config) (dc : ℕ) : cfg.dcTargetIp dc = cfg.dcRedirectMap dc :=
  Collect.findLast_eq_collect cfg.dcIp dc

/-- A DC has a target exactly if the map has it. -/
theorem dcTargetIp_isSome_iff (cfg : Config) (dc : ℕ) :
    (cfg.dcTargetIp dc).isSome = true ↔ dc ∈ cfg.dcRedirects.map Prod.fst := by
  rw [Config.dcRedirects, mem_keys_collectLast]
  simp [Config.dcTargetIp]

/-! ## The arithmetic -/

/-- Below saturation the reserve is what it says. -/
theorem reservedFds_of_lt (poolSize dcBuckets : ℕ)
    (h : reservedFds poolSize dcBuckets < usizeMax) :
    reservedFds poolSize dcBuckets = 1 + 2 * (poolSize * dcBuckets) + 32 := by
  simp only [reservedFds, saturatingAdd, saturatingMul, fdsPerPoolSlot, runtimeReservedFds] at h ⊢
  have hmul : min (poolSize * dcBuckets) usizeMax * 2 < usizeMax := by omega
  have hmax : 0 < usizeMax := by decide
  omega

/-- **The cap fits.** Unless it is raised to its floor, the listener, the amount reserved for the
direct pool and two descriptors for each connection are within the limit less the reserve for the
runtime. -/
theorem autoMaxConnections_fits {fdLimit poolSize dcBuckets : ℕ} (hlimit : fdLimit < usizeMax)
    (hfloor : ¬ FloorRaises fdLimit poolSize dcBuckets) :
    1 + 2 * autoMaxConnections fdLimit poolSize dcBuckets + 2 * (poolSize * dcBuckets) ≤
      fdLimit - runtimeReservedFds := by
  rw [FloorRaises, not_lt] at hfloor
  rw [autoMaxConnections, if_neg hlimit.ne, max_eq_left hfloor]
  simp only [fdsPerConnection, minMaxConnections, runtimeReservedFds] at hfloor ⊢
  -- a saturated reserve would leave nothing
  have hreserved := reservedFds_of_lt poolSize dcBuckets (by omega)
  omega

end TgWsProxy
