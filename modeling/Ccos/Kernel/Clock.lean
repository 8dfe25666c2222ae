import Mathlib.Tactic
import Ccos.Kernel.Trace
import Ccos.Kernel.Memory

/-!
# Clocks

`platform_rtc_read_ns` splits a 128-bit multiply and divide into a quotient and a remainder part.
`exactNs` is what it stands for; the two clocks of `sys_clock_gettime` are compared with it.
-/

namespace Ccos

/-- The nanoseconds of `ticks` ticks of a clock with `hz` ticks per second, rounded down. -/
def exactNs (hz ticks : Nat) : Nat := ticks * 1000000000 / hz

@[simps]
def Kernel.setBootRealNs (s : Kernel) (ns : UInt64) : Kernel :=
  { s with bootRealNs := ns }

/-- `time_init` with the boot time `time`. -/
def timeInit (s : Kernel) (time : UInt64) : Kernel :=
  s.setBootRealNs (platformRtcReadNs s.timebaseHz time)

-- Through the setter: comparing the two records field by field would compute with the clock value.
theorem timeInit_timebaseHz (s : Kernel) (time : UInt64) :
    (timeInit s time).timebaseHz = s.timebaseHz :=
  Kernel.setBootRealNs_timebaseHz s _

theorem timeInit_bootRealNs (s : Kernel) (time : UInt64) :
    (timeInit s time).bootRealNs = platformRtcReadNs s.timebaseHz time :=
  Kernel.setBootRealNs_bootRealNs s _

/-- The `struct timespec` at `p`: seconds and nanoseconds. -/
def loadTimespec (m : Mem) (p : UInt64) : Nat × Nat :=
  (leValue (loadBytes m p 8), leValue (loadBytes m (p + 8) 4))

/-- What a user finds at `uts` after `clock_gettime(id, uts)` at `time`. -/
def clockReading (s : Kernel) (time : UInt64) (id : Int) (uts : UInt64) : Nat × Nat :=
  loadTimespec (sysClockGettime s time id uts).2.mem uts

/-! ## Ticks to nanoseconds -/

section ReadNs

variable (hz : UInt32) (ticks : UInt64)

/-- The ticks past the last full second. -/
def rtcRem : UInt64 := ticks - ticks / hz.toUInt64 * hz.toUInt64

theorem toNat_toUInt64 : hz.toUInt64.toNat = hz.toNat := by
  simp

theorem toNat_rtcRem : (rtcRem hz ticks).toNat = ticks.toNat % hz.toNat := by
  have hsec : (ticks / hz.toUInt64 * hz.toUInt64).toNat = ticks.toNat / hz.toNat * hz.toNat := by
    rw [UInt64.toNat_mul, UInt64.toNat_div, toNat_toUInt64]
    apply Nat.mod_eq_of_lt
    have hle := Nat.div_mul_le_self ticks.toNat hz.toNat
    have hlt := ticks.toNat_lt
    omega
  have hle : ticks / hz.toUInt64 * hz.toUInt64 ≤ ticks := by
    rw [UInt64.le_iff_toNat_le, hsec]
    exact Nat.div_mul_le_self _ _
  unfold rtcRem
  rw [UInt64.toNat_sub_of_le _ _ hle, hsec, Nat.mod_eq_sub_div_mul]

/-- The product of the remainder stays below `2 ^ 64`. -/
theorem rtcRem_mul_lt (hpos : 0 < hz.toNat) : (rtcRem hz ticks).toNat * 1000000000 < 2 ^ 64 := by
  have hlt := hz.toNat_lt
  have hmod := Nat.mod_lt ticks.toNat hpos
  rw [toNat_rtcRem]
  omega

/-- The floor of the whole product is the sum of the two parts. -/
theorem exactNs_split (h t : Nat) (hpos : 0 < h) :
    exactNs h t = t / h * 1000000000 + t % h * 1000000000 / h := by
  unfold exactNs
  have hsplit : t * 1000000000 = t % h * 1000000000 + h * (t / h * 1000000000) := by
    calc t * 1000000000 = (t % h + h * (t / h)) * 1000000000 := by rw [Nat.mod_add_div]
      _ = t % h * 1000000000 + h * (t / h * 1000000000) := by ring
  rw [hsplit, Nat.add_mul_div_left _ _ hpos, Nat.add_comm]

theorem toNat_platformRtcReadNs (hpos : 0 < hz.toNat) :
    (platformRtcReadNs hz ticks).toNat = exactNs hz.toNat ticks.toNat % 2 ^ 64 := by
  have hrem := rtcRem_mul_lt hz ticks hpos
  have hdef : platformRtcReadNs hz ticks =
      ticks / hz.toUInt64 * 1000000000 + rtcRem hz ticks * 1000000000 / hz.toUInt64 := rfl
  have hmul : (rtcRem hz ticks * 1000000000).toNat = ticks.toNat % hz.toNat * 1000000000 := by
    rw [UInt64.toNat_mul, ← toNat_rtcRem]
    exact Nat.mod_eq_of_lt hrem
  rw [hdef, UInt64.toNat_add, UInt64.toNat_mul, UInt64.toNat_div, UInt64.toNat_div, hmul,
    toNat_toUInt64, exactNs_split _ _ hpos]
  exact Nat.mod_add_mod _ _ _

end ReadNs

/-! ## Timespecs -/

/-- A timespec holds its nanoseconds. -/
theorem ktimeSplit_value (ns : UInt64) :
    (ktimeSplit ns).1.toNat * 1000000000 + (ktimeSplit ns).2.toNat = ns.toNat ∧
      (ktimeSplit ns).2.toNat < 1000000000 := by
  have hmod := Nat.mod_lt ns.toNat (by decide : 0 < 1000000000)
  have hnsec : (ktimeSplit ns).2.toNat = ns.toNat % 1000000000 := by
    show ((ns % 1000000000).toUInt32).toNat = _
    have hbase : (1000000000 : UInt64).toNat = 1000000000 := rfl
    rw [UInt64.toNat_toUInt32, UInt64.toNat_mod, hbase]
    -- a remainder below 10^9 survives the cast to `uint32_t`
    exact Nat.mod_eq_of_lt (by omega)
  have hsec : (ktimeSplit ns).1.toNat = ns.toNat / 1000000000 := by
    show (ns / 1000000000).toNat = _
    rw [UInt64.toNat_div]
    rfl
  rw [hsec, hnsec]
  omega

/-- The user reads back what the kernel computed. -/
theorem loadTimespec_copy (s : Kernel) {uts : UInt64} (ts : UInt64 × UInt32) (hu : uts ≠ 0) :
    loadTimespec (copyToUserTimespec s uts ts).2.mem uts = (ts.1.toNat, ts.2.toNat) := by
  have hlen : (leBytes 8 ts.1.toNat ++ leBytes 4 ts.2.toNat).length = 12 := by simp
  have hzero : uts + UInt64.ofNat 0 = uts := UInt64.add_zero uts
  have hsec := loadBytes_storeBytes s.mem uts (leBytes 8 ts.1.toNat ++ leBytes 4 ts.2.toNat)
    (k := 0) (n := 8) (by omega) (by omega)
  have hnsec := loadBytes_storeBytes s.mem uts (leBytes 8 ts.1.toNat ++ leBytes 4 ts.2.toNat)
    (k := 8) (n := 4) (by omega) (by omega)
  rw [hzero] at hsec
  have hcopy : (copyToUserTimespec s uts ts).2.mem =
      storeBytes s.mem uts (leBytes 8 ts.1.toNat ++ leBytes 4 ts.2.toNat) := by
    rw [copyToUserTimespec, if_neg hu]
  unfold loadTimespec
  rw [hcopy]
  have hoff : uts + 8 = uts + UInt64.ofNat 8 := rfl
  rw [hsec, hoff, hnsec]
  have h8 : ((leBytes 8 ts.1.toNat ++ leBytes 4 ts.2.toNat).drop 0).take 8 =
      leBytes 8 ts.1.toNat := by
    rw [List.drop_zero, List.take_append_of_le_length (by simp)]
    exact List.take_of_length_le (by simp)
  have h4 : ((leBytes 8 ts.1.toNat ++ leBytes 4 ts.2.toNat).drop 8).take 4 =
      leBytes 4 ts.2.toNat := by
    rw [List.drop_append_of_le_length (by simp), List.drop_of_length_le (by simp)]
    exact List.take_of_length_le (by simp)
  rw [h8, h4, leValue_leBytes, leValue_leBytes]
  have h1 := ts.1.toNat_lt
  have h2 := ts.2.toNat_lt
  rw [Nat.mod_eq_of_lt (by norm_num; omega), Nat.mod_eq_of_lt (by norm_num; omega)]

/-! ## The two clocks -/

/-- `clock_gettime(id, uts)` at `time` succeeds and hands out a timespec of `ns` nanoseconds. -/
structure Reads (s : Kernel) (time : UInt64) (id : Int) (uts : UInt64) (ns : Nat) : Prop where
  ret : (sysClockGettime s time id uts).1 = 0
  nsec : (clockReading s time id uts).2 < 1000000000
  value : (clockReading s time id uts).1 * 1000000000 + (clockReading s time id uts).2 = ns

/-- Lexicographic order of timespecs. -/
def TimespecLe (a b : Nat × Nat) : Prop :=
  a.1 < b.1 ∨ (a.1 = b.1 ∧ a.2 ≤ b.2)

/-- Readings are ordered as the nanoseconds they stand for. -/
theorem Reads.ordered {s : Kernel} {t1 t2 uts : UInt64} {id : Int} {n1 n2 : Nat}
    (h1 : Reads s t1 id uts n1) (h2 : Reads s t2 id uts n2) (hle : n1 ≤ n2) :
    TimespecLe (clockReading s t1 id uts) (clockReading s t2 id uts) := by
  have hn1 := h1.nsec
  have hn2 := h2.nsec
  have hv1 := h1.value
  have hv2 := h2.value
  unfold TimespecLe
  omega

theorem reads_of_copy {s : Kernel} {time uts ns : UInt64} {id : Int} (hu : uts ≠ 0)
    (hs : sysClockGettime s time id uts = copyToUserTimespec s uts (ktimeSplit ns)) :
    Reads s time id uts ns.toNat := by
  have hload := loadTimespec_copy s (ktimeSplit ns) hu
  have hval := ktimeSplit_value ns
  rw [← hs] at hload
  have hreading : clockReading s time id uts =
      ((ktimeSplit ns).1.toNat, (ktimeSplit ns).2.toNat) := hload
  refine ⟨?_, ?_, ?_⟩
  · rw [hs, copyToUserTimespec, if_neg hu]
  · rw [hreading]
    exact hval.2
  · rw [hreading]
    exact hval.1

theorem sysClockGettime_real (s : Kernel) (time uts : UInt64) :
    sysClockGettime s time 0 uts =
      copyToUserTimespec s uts (ktimeSplit (platformRtcReadNs s.timebaseHz time)) := by
  unfold sysClockGettime ktimeGetRealTs
  rw [if_pos rfl]

theorem sysClockGettime_monotonic (s : Kernel) (time uts : UInt64) :
    sysClockGettime s time 1 uts =
      copyToUserTimespec s uts
        (ktimeSplit (platformRtcReadNs s.timebaseHz time - s.bootRealNs)) := by
  have hne : ¬ (1 : Int) = 0 := by decide
  unfold sysClockGettime ktimeGetMonotonicTs
  rw [if_neg hne, if_pos rfl]

theorem exactNs_mono {h t1 t2 : Nat} (hle : t1 ≤ t2) : exactNs h t1 ≤ exactNs h t2 :=
  Nat.div_le_div_right (Nat.mul_le_mul_right _ hle)

section Exact

variable {s : Kernel} {t0 t uts : UInt64}

/-- Below `2 ^ 64` nanoseconds the conversion does not wrap. -/
theorem toNat_readNs_of_lt (hpos : 0 < s.timebaseHz.toNat)
    (hfit : exactNs s.timebaseHz.toNat t.toNat < 2 ^ 64) :
    (platformRtcReadNs s.timebaseHz t).toNat = exactNs s.timebaseHz.toNat t.toNat := by
  rw [toNat_platformRtcReadNs _ _ hpos]
  exact Nat.mod_eq_of_lt hfit

theorem reads_real (hpos : 0 < s.timebaseHz.toNat)
    (hfit : exactNs s.timebaseHz.toNat t.toNat < 2 ^ 64) (hu : uts ≠ 0) :
    Reads (timeInit s t0) t 0 uts (exactNs s.timebaseHz.toNat t.toNat) := by
  have hcopy := sysClockGettime_real (timeInit s t0) t uts
  rw [timeInit_timebaseHz] at hcopy
  rw [← toNat_readNs_of_lt hpos hfit]
  exact reads_of_copy hu hcopy

/-- The boot time is not above the reading, so the difference does not underflow. -/
theorem reads_monotonic (hpos : 0 < s.timebaseHz.toNat)
    (hfit : exactNs s.timebaseHz.toNat t.toNat < 2 ^ 64) (hle : t0.toNat ≤ t.toNat)
    (hu : uts ≠ 0) :
    Reads (timeInit s t0) t 1 uts
      (exactNs s.timebaseHz.toNat t.toNat - exactNs s.timebaseHz.toNat t0.toNat) := by
  have hmono := @exactNs_mono s.timebaseHz.toNat _ _ hle
  have hnow := toNat_readNs_of_lt hpos hfit
  have hthen := toNat_readNs_of_lt hpos (lt_of_le_of_lt hmono hfit)
  have hsub : platformRtcReadNs s.timebaseHz t0 ≤ platformRtcReadNs s.timebaseHz t := by
    rw [UInt64.le_iff_toNat_le, hnow, hthen]
    exact hmono
  have hcopy := sysClockGettime_monotonic (timeInit s t0) t uts
  rw [timeInit_timebaseHz, timeInit_bootRealNs] at hcopy
  rw [← hnow, ← hthen, ← UInt64.toNat_sub_of_le _ _ hsub]
  exact reads_of_copy hu hcopy

end Exact

/-- For every frequency and every counter value the conversion is the exact floor modulo `2 ^ 64`,
and its inner product does not overflow.  After `time_init` at `t0`, both clocks hand out the exact
nanoseconds as well-formed timespecs, in the order of the counter. -/
theorem clocks_exact (s : Kernel) (hhz : s.timebaseHz ≠ 0) :
    (∀ ticks : UInt64,
      (platformRtcReadNs s.timebaseHz ticks).toNat =
        exactNs s.timebaseHz.toNat ticks.toNat % 2 ^ 64 ∧
      (rtcRem s.timebaseHz ticks).toNat * 1000000000 < 2 ^ 64) ∧
    ∀ t0 t1 t2 uts : UInt64, t0 ≤ t1 → t1 ≤ t2 → exactNs s.timebaseHz.toNat t2.toNat < 2 ^ 64 →
      uts ≠ 0 →
      exactNs s.timebaseHz.toNat t0.toNat ≤ exactNs s.timebaseHz.toNat t1.toNat ∧
      Reads (timeInit s t0) t1 1 uts
        (exactNs s.timebaseHz.toNat t1.toNat - exactNs s.timebaseHz.toNat t0.toNat) ∧
      Reads (timeInit s t0) t2 1 uts
        (exactNs s.timebaseHz.toNat t2.toNat - exactNs s.timebaseHz.toNat t0.toNat) ∧
      TimespecLe (clockReading (timeInit s t0) t1 1 uts) (clockReading (timeInit s t0) t2 1 uts) ∧
      Reads (timeInit s t0) t1 0 uts (exactNs s.timebaseHz.toNat t1.toNat) ∧
      Reads (timeInit s t0) t2 0 uts (exactNs s.timebaseHz.toNat t2.toNat) ∧
      TimespecLe (clockReading (timeInit s t0) t1 0 uts)
        (clockReading (timeInit s t0) t2 0 uts) := by
  have hpos : 0 < s.timebaseHz.toNat := by
    apply Nat.pos_of_ne_zero
    intro h0
    exact hhz (UInt32.toNat_inj.mp h0)
  refine ⟨fun ticks => ⟨toNat_platformRtcReadNs _ _ hpos, rtcRem_mul_lt _ _ hpos⟩, ?_⟩
  intro t0 t1 t2 uts h01 h12 hfit hu
  rw [UInt64.le_iff_toNat_le] at h01 h12
  have hm01 := @exactNs_mono s.timebaseHz.toNat _ _ h01
  have hm12 := @exactNs_mono s.timebaseHz.toNat _ _ h12
  have hfit1 := lt_of_le_of_lt hm12 hfit
  have hr1 : Reads (timeInit s t0) t1 0 uts _ := reads_real hpos hfit1 hu
  have hr2 : Reads (timeInit s t0) t2 0 uts _ := reads_real hpos hfit hu
  have hm1 := reads_monotonic hpos hfit1 h01 hu
  have hm2 := reads_monotonic hpos hfit (le_trans h01 h12) hu
  have hsub := Nat.sub_le_sub_right hm12 (exactNs s.timebaseHz.toNat t0.toNat)
  exact ⟨hm01, hm1, hm2, hm1.ordered hm2 hsub, hr1, hr2, hr1.ordered hr2 hm12⟩

/-- At 10 MHz, one tick after boot is 100 ns on the monotonic clock. -/
theorem clocks_exact_example :
    ∃ s : Kernel, s.timebaseHz ≠ 0 ∧ Reads (timeInit s 5) 6 1 64 100 := by
  have hhz : (10000000 : UInt32) ≠ 0 := by decide
  refine ⟨{ bssKernel bootOnHart0 with timebaseHz := 10000000 }, hhz, ?_⟩
  have h := (clocks_exact { bssKernel bootOnHart0 with timebaseHz := 10000000 } hhz).2
    5 6 6 64 (by decide) (by decide) (by decide) (by decide)
  exact h.2.1

end Ccos
