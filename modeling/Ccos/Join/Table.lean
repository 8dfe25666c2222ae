import Mathlib.Tactic

/-!
# The join protocol

What `join`, `exit`, `kill` and `detach` are about, without queues and harts.  A slot is free,
lives, waits for another slot, or is dead with an exit code; the joiner of a slot and the target of
a waiter are two ends of one relation.  `Table.apply` is the whole protocol, one event at a time.
-/

namespace Ccos

inductive Phase
  | unused
  | alive
  | waiting
  | zombie
  deriving DecidableEq

structure Slot where
  phase : Phase
  joinWaiter : Int
  waitingFor : Int
  statusPtr : UInt64
  detached : Bool
  exitCode : Int

namespace Slot

/-- A recycled slot. -/
def free : Slot := ⟨.unused, -1, -1, 0, false, 0⟩

@[simps]
def create (x : Slot) : Slot := { x with phase := .alive, detached := false }

/-- A thread suspends itself outside `join`. -/
@[simps]
def suspend (x : Slot) : Slot := { x with phase := .alive }

@[simps]
def wait (x : Slot) (t : Int) (p : UInt64) : Slot :=
  { x with phase := .waiting, waitingFor := t, statusPtr := p }

/-- The join of a waiter returns. -/
@[simps]
def release (x : Slot) : Slot := { x with phase := .alive, waitingFor := -1, statusPtr := 0 }

@[simps]
def setJoinWaiter (x : Slot) (w : Int) : Slot := { x with joinWaiter := w }

@[simps]
def detach (x : Slot) : Slot := { x with detached := true }

@[simps]
def die (x : Slot) (code : Int) : Slot :=
  { x with
    phase := .zombie
    exitCode := code
    joinWaiter := if 0 ≤ x.joinWaiter then x.joinWaiter else -1 }

end Slot

abbrev Table := Int → Slot

inductive JoinEvent
  | skip
  | create (t : Int)
  | suspend (w : Int)
  | wait (w t : Int) (p : UInt64)
  | detach (t : Int)
  | collect (t : Int)
  /-- `t` dies; `now` says that nobody executes it any more -/
  | terminate (t code : Int) (now : Bool)

namespace Table

variable (V : Table)

def set (t : Int) (x : Slot) : Table := fun u => if u = t then x else V u

@[simp] theorem set_self (t : Int) (x : Slot) : V.set t x t = x := if_pos rfl

@[simp] theorem set_ne {t u : Int} (x : Slot) (h : u ≠ t) : V.set t x u = V u := if_neg h

def recycle (t : Int) : Table := V.set t .free

def wait (w t : Int) (p : UInt64) : Table :=
  (V.set w ((V w).wait t p)).set t ((V.set w ((V w).wait t p) t).setJoinWaiter w)

/-- The joiner of a dead thread, if there is one, returns from `join`. -/
def release (w : Int) : Table := if 0 ≤ w then V.set w (V w).release else V

/-- `t` dies and its joiner returns; its slot is freed if it was joined or is detached. -/
def terminate (t code : Int) (now : Bool) : Table :=
  let V' := (V.set t ((V t).die code)).release (V t).joinWaiter
  if now ∧ (0 ≤ (V t).joinWaiter ∨ (V t).detached = true) then V'.recycle t else V'

def apply : JoinEvent → Table
  | .skip => V
  | .create t => V.set t (V t).create
  | .suspend w => V.set w (V w).suspend
  | .wait w t p => V.wait w t p
  | .detach t => V.set t (V t).detach
  | .collect t => V.recycle t
  | .terminate t code now => V.terminate t code now

/-- What `schedule` does to the slot of the thread it leaves. -/
def reclaim (n : Nat) (t : Int) : Table :=
  if (V t).phase = .zombie ∧ ((0 ≤ (V t).joinWaiter ∧ (V t).joinWaiter < n) ∨ (V t).detached = true)
  then V.recycle t
  else V

/-! ## Joiners wait -/

/-- `w` waits in `join(t)`. -/
def Waits (w t : Int) : Prop := (V w).phase = .waiting ∧ (V w).waitingFor = t

/-- The joiner recorded at a thread that is not dead waits for it. -/
structure JoinersWait (n : Nat) : Prop where
  waits : ∀ t : Int, 0 ≤ t → t < n → 0 ≤ (V t).joinWaiter → (V t).phase ≠ .zombie →
    (V t).joinWaiter < n ∧ V.Waits (V t).joinWaiter t
  unused : ∀ t : Int, 0 ≤ t → t < n → (V t).phase = .unused → (V t).joinWaiter < 0

/-- A thread that may suspend itself or die: it executes, and if it is dead already nobody is
recorded as its joiner. -/
def MayStop (w : Int) : Prop :=
  (V w).phase ≠ .unused ∧ (V w).phase ≠ .waiting ∧ ((V w).phase = .zombie → (V w).joinWaiter < 0)

/-- When the protocol admits an event. -/
def Legal (n : Nat) : JoinEvent → Prop
  | .skip => True
  | .create t => 0 ≤ t ∧ t < n ∧ (V t).phase = .unused
  | .suspend w => V.MayStop w
  | .wait w t _ => w < n ∧ V.MayStop w ∧ w ≠ t ∧ (V t).phase ≠ .unused
  | .detach t => (V t).phase ≠ .unused
  | .collect t => (V t).phase = .zombie
  | .terminate t _ _ => 0 ≤ t ∧ t < n ∧ V.MayStop t

variable {V} {n : Nat}

/-- Only dead threads record `w` as their joiner. -/
def Unrecorded (V : Table) (n : Nat) (w : Int) : Prop :=
  ∀ t : Int, 0 ≤ t → t < n → 0 ≤ (V t).joinWaiter → (V t).joinWaiter = w → (V t).phase = .zombie

theorem JoinersWait.unrecorded (hj : V.JoinersWait n) {w : Int} (hw : (V w).phase ≠ .waiting) :
    V.Unrecorded n w := by
  intro t h1 h2 h0 heq
  by_contra hz
  have hwait := (hj.waits t h1 h2 h0 hz).2.1
  rw [heq] at hwait
  exact hw hwait

/-- Changing a slot that no live thread relies on, keeping its own joiner. -/
theorem JoinersWait.set (hj : V.JoinersWait n) {t : Int} {x : Slot} (ht : V.Unrecorded n t)
    (hx : 0 ≤ x.joinWaiter → x.phase ≠ .zombie → x.joinWaiter = (V t).joinWaiter ∧
      (V t).phase ≠ .zombie)
    (hu : x.phase = .unused → x.joinWaiter < 0) : (V.set t x).JoinersWait n := by
  -- a live thread with a joiner has one that is not the changed slot
  have hold : ∀ u : Int, 0 ≤ u → u < n → 0 ≤ (V u).joinWaiter → (V u).phase ≠ .zombie →
      (V u).joinWaiter < n ∧ (V.set t x).Waits (V u).joinWaiter u := by
    intro u h1 h2 h0 hz
    obtain ⟨hlt, hwait⟩ := hj.waits u h1 h2 h0 hz
    have hne : (V u).joinWaiter ≠ t := fun heq => hz (ht u h1 h2 h0 heq)
    refine ⟨hlt, ?_⟩
    simpa [Waits, hne] using hwait
  constructor
  · intro u h1 h2 h0 hz
    by_cases hut : u = t
    · subst hut
      rw [set_self] at h0 hz ⊢
      obtain ⟨heq, hz'⟩ := hx h0 hz
      rw [heq] at h0 ⊢
      exact hold u h1 h2 h0 hz'
    · rw [set_ne V x hut] at h0 hz ⊢
      exact hold u h1 h2 h0 hz
  · intro u h1 h2 hph
    by_cases hut : u = t
    · subst hut
      rw [set_self] at hph ⊢
      exact hu hph
    · rw [set_ne V x hut] at hph ⊢
      exact hj.unused u h1 h2 hph

theorem JoinersWait.recycle (hj : V.JoinersWait n) {t : Int} (ht : (V t).phase ≠ .waiting) :
    (V.recycle t).JoinersWait n := by
  refine hj.set (hj.unrecorded ht) (fun h0 => ?_) (fun _ => ?_)
  · have hneg : ¬ (0 : Int) ≤ Slot.free.joinWaiter := by decide
    exact absurd h0 hneg
  · show Slot.free.joinWaiter < 0
    decide

theorem JoinersWait.reclaim (hj : V.JoinersWait n) (t : Int) : (V.reclaim n t).JoinersWait n := by
  unfold Table.reclaim
  split
  · rename_i hz
    refine hj.recycle ?_
    rw [hz.1]
    decide
  · exact hj

/-- A thread that executes suspends itself. -/
theorem JoinersWait.suspend (hj : V.JoinersWait n) {w : Int} {x : Slot} (hw : V.MayStop w)
    (hx : x.joinWaiter = (V w).joinWaiter) (hph : x.phase ≠ .unused) :
    (V.set w x).JoinersWait n := by
  refine hj.set (hj.unrecorded hw.2.1) (fun h0 _ => ⟨hx, fun hz => ?_⟩) fun hu => absurd hu hph
  have hneg := hw.2.2 hz
  omega

/-- `t` gets a joiner that waits for it. -/
theorem JoinersWait.setJoinWaiter (hj : V.JoinersWait n) {w t : Int} (h2 : w < n)
    (hw : V.Waits w t) (hne : w ≠ t) (hu : (V t).phase ≠ .unused) :
    (V.set t ((V t).setJoinWaiter w)).JoinersWait n := by
  have hkeep : ∀ {w' u : Int}, V.Waits w' u → (V.set t ((V t).setJoinWaiter w)).Waits w' u := by
    intro w' u hwait
    by_cases hwt : w' = t
    · subst hwt
      simpa [Waits] using hwait
    · simpa [Waits, hwt] using hwait
  constructor
  · intro u hu1 hu2 h0 hz
    by_cases hut : u = t
    · subst hut
      rw [set_self]
      exact ⟨h2, hkeep hw⟩
    · rw [set_ne V _ hut] at h0 hz ⊢
      obtain ⟨hlt, hwait⟩ := hj.waits u hu1 hu2 h0 hz
      exact ⟨hlt, hkeep hwait⟩
  · intro u hu1 hu2 hph
    by_cases hut : u = t
    · subst hut
      rw [set_self] at hph
      exact absurd hph hu
    · rw [set_ne V _ hut] at hph ⊢
      exact hj.unused u hu1 hu2 hph

theorem JoinersWait.wait (hj : V.JoinersWait n) {w t : Int} {p : UInt64} (h2 : w < n)
    (hw : V.MayStop w) (hne : w ≠ t) (hu : (V t).phase ≠ .unused) :
    (V.wait w t p).JoinersWait n := by
  have hsus : (V.set w ((V w).wait t p)).JoinersWait n := hj.suspend hw rfl (by simp)
  refine hsus.setJoinWaiter h2 ?_ hne ?_
  · simp [Waits]
  · rwa [set_ne V _ (Ne.symm hne)]

/-- The joiner of a thread that executes waits for it. -/
theorem JoinersWait.joiner (hj : V.JoinersWait n) {t : Int} (h1 : 0 ≤ t) (h2 : t < n)
    (ht : V.MayStop t) (h0 : 0 ≤ (V t).joinWaiter) :
    (V t).joinWaiter < n ∧ V.Waits (V t).joinWaiter t := by
  refine hj.waits t h1 h2 h0 fun hz => ?_
  have hneg := ht.2.2 hz
  omega

theorem JoinersWait.terminate (hj : V.JoinersWait n) {t code : Int} {now : Bool} (h1 : 0 ≤ t)
    (h2 : t < n) (ht : V.MayStop t) : (V.terminate t code now).JoinersWait n := by
  have hdead : (V.set t ((V t).die code)).JoinersWait n := by
    refine hj.set (hj.unrecorded ht.2.1) (fun _ hz => absurd rfl hz) (fun hu => ?_)
    cases hu
  -- the released joiner was recorded at `t` only, and `t` is dead now
  have hrel : ((V.set t ((V t).die code)).release (V t).joinWaiter).JoinersWait n ∧
      (((V.set t ((V t).die code)).release (V t).joinWaiter) t).phase = .zombie := by
    unfold Table.release
    split
    · rename_i h0
      obtain ⟨-, hwait⟩ := hj.joiner h1 h2 ht h0
      have hne : (V t).joinWaiter ≠ t := by
        intro heq
        rw [heq] at hwait
        exact ht.2.1 hwait.1
      have hw : V.set t ((V t).die code) (V t).joinWaiter = V (V t).joinWaiter := set_ne V _ hne
      refine ⟨hdead.set ?_ (fun _ _ => ⟨rfl, ?_⟩) (fun hu => ?_), ?_⟩
      · intro u hu1 hu2 hu0 heq
        by_contra hz
        have hut : u ≠ t := by
          rintro rfl
          rw [set_self] at hz
          exact hz rfl
        rw [set_ne V _ hut] at hu0 heq hz
        have hwait' := (hj.waits u hu1 hu2 hu0 hz).2.2
        rw [heq, hwait.2] at hwait'
        exact hut hwait'.symm
      · rw [hw, hwait.1]
        decide
      · cases hu
      · rw [set_ne _ _ (Ne.symm hne), set_self]
        rfl
    · refine ⟨hdead, ?_⟩
      rw [set_self]
      rfl
  unfold Table.terminate
  dsimp only
  split
  · refine hrel.1.recycle ?_
    rw [hrel.2]
    decide
  · exact hrel.1

/-- Every event that the protocol admits keeps the joiners waiting. -/
theorem JoinersWait.apply (hj : V.JoinersWait n) {e : JoinEvent} (he : V.Legal n e) :
    (V.apply e).JoinersWait n := by
  cases e with
  | skip => exact hj
  | create t =>
    obtain ⟨h1, h2, hu⟩ := he
    have hnone := hj.unused t h1 h2 hu
    refine hj.set (hj.unrecorded (by rw [hu]; decide)) (fun h0 _ => ?_) (fun hx => ?_)
    · have h0' : 0 ≤ (V t).joinWaiter := h0
      omega
    · cases hx
  | suspend w => exact hj.suspend he rfl (by simp)
  | wait w t p => exact hj.wait he.1 he.2.1 he.2.2.1 he.2.2.2
  | detach t =>
    -- `thread_detach` writes none of the three fields the relation is about
    have hkeep : ∀ u, (V.set t (V t).detach u).phase = (V u).phase ∧
        (V.set t (V t).detach u).joinWaiter = (V u).joinWaiter ∧
        (V.set t (V t).detach u).waitingFor = (V u).waitingFor := by
      intro u
      by_cases hu : u = t
      · subst hu
        simp
      · simp [hu]
    constructor
    · intro u h1 h2 h0 hz
      change 0 ≤ (V.set t (V t).detach u).joinWaiter at h0
      change (V.set t (V t).detach u).phase ≠ .zombie at hz
      change (V.set t (V t).detach u).joinWaiter < n ∧
        (V.set t (V t).detach).Waits (V.set t (V t).detach u).joinWaiter u
      rw [(hkeep u).2.1] at h0 ⊢
      rw [(hkeep u).1] at hz
      obtain ⟨hlt, hwait⟩ := hj.waits u h1 h2 h0 hz
      exact ⟨hlt, (hkeep _).1.trans hwait.1, (hkeep _).2.2.trans hwait.2⟩
    · intro u h1 h2 hph
      change (V.set t (V t).detach u).phase = .unused at hph
      change (V.set t (V t).detach u).joinWaiter < 0
      rw [(hkeep u).1] at hph
      rw [(hkeep u).2.1]
      exact hj.unused u h1 h2 hph
  | collect t =>
    have hz : (V t).phase = .zombie := he
    exact hj.recycle (by rw [hz]; decide)
  | terminate t code now => exact hj.terminate he.1 he.2.1 he.2.2

/-! ## No lost thread

Without kills of waiting threads or of threads that another hart executes, the joiner of a thread
and the target of a waiter are inverse to each other, and a dead slot is one that anybody may
join. -/

variable (V n) in
structure Exact : Prop extends V.JoinersWait n where
  target : ∀ w : Int, 0 ≤ w → w < n → (V w).phase = .waiting →
    0 ≤ (V w).waitingFor ∧ (V w).waitingFor < n ∧ (V (V w).waitingFor).joinWaiter = w ∧
    (V (V w).waitingFor).phase ≠ .unused ∧ (V (V w).waitingFor).phase ≠ .zombie ∧
    (V (V w).waitingFor).detached = false
  dead : ∀ t : Int, 0 ≤ t → t < n → (V t).phase = .zombie →
    (V t).joinWaiter = -1 ∧ (V t).detached = false

variable (V n) in
/-- The events of such runs: only threads that live suspend themselves or die. -/
def Strict : JoinEvent → Prop
  | .skip => True
  | .create t => 0 ≤ t ∧ t < n ∧ (V t).phase = .unused
  | .suspend w => (V w).phase = .alive
  | .wait w t _ => (0 ≤ w ∧ w < n ∧ (V w).phase = .alive) ∧ w ≠ t ∧ 0 ≤ t ∧ t < n ∧
      (V t).phase ≠ .unused ∧ (V t).phase ≠ .zombie ∧ (V t).detached = false ∧
      ((V t).joinWaiter < 0 ∨ (V t).joinWaiter = w)
  | .detach t => (V t).phase ≠ .unused ∧ (V t).phase ≠ .zombie ∧ (V t).joinWaiter < 0
  | .collect t => (V t).phase = .zombie
  | .terminate t _ now => 0 ≤ t ∧ t < n ∧ (V t).phase = .alive ∧ now = true

theorem mayStop_of_alive {w : Int} (hw : (V w).phase = .alive) : V.MayStop w := by
  refine ⟨?_, ?_, fun hz => ?_⟩
  · rw [hw]
    decide
  · rw [hw]
    decide
  · rw [hw] at hz
    cases hz

theorem Strict.legal {e : JoinEvent} (he : V.Strict n e) : V.Legal n e := by
  cases e with
  | skip => trivial
  | create t => exact he
  | suspend w => exact mayStop_of_alive he
  | wait w t p => exact ⟨he.1.2.1, mayStop_of_alive he.1.2.2, he.2.1, he.2.2.2.2.1⟩
  | detach t => exact he.1
  | collect t => exact he
  | terminate t code now => exact ⟨he.1, he.2.1, mayStop_of_alive he.2.2.1⟩

/-- Changing a slot that waits no more than before, as those who wait for it expect. -/
theorem Exact.set (hv : V.Exact n) {t : Int} {x : Slot} (hj : (V.set t x).JoinersWait n)
    (hx : x.phase = .waiting → (V t).phase = .waiting ∧ x.waitingFor = (V t).waitingFor)
    (hz : x.phase = .zombie → x.joinWaiter = -1 ∧ x.detached = false)
    (ht : ∀ w : Int, 0 ≤ w → w < n → V.Waits w t →
      x.joinWaiter = w ∧ x.phase ≠ .unused ∧ x.phase ≠ .zombie ∧ x.detached = false) :
    (V.set t x).Exact n := by
  refine ⟨hj, ?_, ?_⟩
  · intro w h1 h2 hw
    have hold : (V w).phase = .waiting ∧ (V.set t x w).waitingFor = (V w).waitingFor := by
      by_cases hwt : w = t
      · subst hwt
        rw [set_self] at hw ⊢
        exact hx hw
      · rw [set_ne V x hwt] at hw ⊢
        exact ⟨hw, rfl⟩
    rw [hold.2]
    obtain ⟨g1, g2, hg⟩ := hv.target w h1 h2 hold.1
    refine ⟨g1, g2, ?_⟩
    by_cases hgt : (V w).waitingFor = t
    · rw [hgt, set_self]
      exact ht w h1 h2 ⟨hold.1, hgt⟩
    · rw [set_ne V x hgt]
      exact hg
  · intro u h1 h2 hu
    by_cases hut : u = t
    · subst hut
      rw [set_self] at hu ⊢
      exact hz hu
    · rw [set_ne V x hut] at hu ⊢
      exact hv.dead u h1 h2 hu

/-- A slot without a joiner is nobody's target. -/
theorem Exact.no_waiter (hv : V.Exact n) {t : Int} (ht : (V t).joinWaiter < 0) {w : Int}
    (h1 : 0 ≤ w) (h2 : w < n) : ¬ V.Waits w t := by
  rintro ⟨hw, rfl⟩
  have hjw := (hv.target w h1 h2 hw).2.2.1
  omega

theorem Exact.recycle (hv : V.Exact n) {t : Int} (ht : (V t).phase ≠ .waiting)
    (hnone : ∀ w : Int, 0 ≤ w → w < n → ¬ V.Waits w t) : (V.recycle t).Exact n := by
  refine hv.set (hv.toJoinersWait.recycle ht) (fun hx => ?_) (fun hx => ?_) ?_
  · cases hx
  · cases hx
  · exact fun w h1 h2 hw => absurd hw (hnone w h1 h2)

theorem Exact.wait (hv : V.Exact n) {w t : Int} {p : UInt64} (he : V.Strict n (.wait w t p)) :
    (V.wait w t p).Exact n := by
  have hj := hv.toJoinersWait.apply (Strict.legal he)
  obtain ⟨⟨hw1, hw2, hw⟩, hne, ht1, ht2, hu, hz, hd, hjw⟩ := he
  have ht : (V.wait w t p) t = (V t).setJoinWaiter w := by simp [Table.wait, Ne.symm hne]
  have hself : (V.wait w t p) w = (V w).wait t p := by simp [Table.wait, hne]
  have hother : ∀ u, u ≠ w → u ≠ t → (V.wait w t p) u = V u := by
    intro u huw hut
    simp [Table.wait, huw, hut]
  -- the caller was not the recorded joiner before, since it did not wait
  have hfree : (V t).joinWaiter < 0 := by
    rcases hjw with hneg | heq
    · exact hneg
    · exfalso
      have hwait := (hv.waits t ht1 ht2 (by omega) hz).2.1
      rw [heq, hw] at hwait
      cases hwait
  refine ⟨hj, ?_, ?_⟩
  · intro u h1 h2 hph
    by_cases huw : u = w
    · subst huw
      rw [hself]
      rw [Slot.wait_waitingFor, ht]
      exact ⟨ht1, ht2, rfl, hu, hz, hd⟩
    have hold : (V u).phase = .waiting ∧ ((V.wait w t p) u).waitingFor = (V u).waitingFor := by
      by_cases hut : u = t
      · subst hut
        rw [ht] at hph ⊢
        exact ⟨hph, rfl⟩
      · rw [hother u huw hut] at hph ⊢
        exact ⟨hph, rfl⟩
    rw [hold.2]
    obtain ⟨g1, g2, hgw, hgu, hgz, hgd⟩ := hv.target u h1 h2 hold.1
    refine ⟨g1, g2, ?_⟩
    have hgt : (V u).waitingFor ≠ t := fun heq => hv.no_waiter hfree h1 h2 ⟨hold.1, heq⟩
    by_cases hgw' : (V u).waitingFor = w
    · rw [hgw', hself]
      rw [hgw'] at hgw hgd
      exact ⟨hgw, by simp, by simp, hgd⟩
    · rw [hother _ hgw' hgt]
      exact ⟨hgw, hgu, hgz, hgd⟩
  · intro u h1 h2 hph
    by_cases hut : u = t
    · subst hut
      rw [ht] at hph
      exact absurd hph hz
    by_cases huw : u = w
    · subst huw
      rw [hself] at hph
      cases hph
    · rw [hother u huw hut] at hph ⊢
      exact hv.dead u h1 h2 hph

theorem Exact.terminate (hv : V.Exact n) {t code : Int} (h1 : 0 ≤ t) (h2 : t < n)
    (ht : (V t).phase = .alive) : (V.terminate t code true).Exact n := by
  have hexec := mayStop_of_alive ht
  have hj : (V.terminate t code true).JoinersWait n := hv.toJoinersWait.terminate h1 h2 hexec
  by_cases h0 : 0 ≤ (V t).joinWaiter
  · obtain ⟨hlt, hwait⟩ := hv.toJoinersWait.joiner h1 h2 hexec h0
    have hne : (V t).joinWaiter ≠ t := by
      intro heq
      rw [heq, Waits, ht] at hwait
      cases hwait.1
    -- the joiner is released and the slot is free
    have hself : (V.terminate t code true) t = .free := by
      simp [Table.terminate, h0, Table.recycle]
    have hw : (V.terminate t code true) (V t).joinWaiter = (V (V t).joinWaiter).release := by
      simp [Table.terminate, Table.release, h0, Table.recycle, hne]
    have hother : ∀ u, u ≠ t → u ≠ (V t).joinWaiter → (V.terminate t code true) u = V u := by
      intro u hut huw
      simp [Table.terminate, Table.release, h0, Table.recycle, hut, huw]
    refine ⟨hj, ?_, ?_⟩
    · intro u hu1 hu2 hph
      have hut : u ≠ t := by
        rintro rfl
        rw [hself] at hph
        cases hph
      have huw : u ≠ (V t).joinWaiter := by
        rintro rfl
        rw [hw] at hph
        cases hph
      rw [hother u hut huw] at hph ⊢
      obtain ⟨g1, g2, hgw, hgu, hgz, hgd⟩ := hv.target u hu1 hu2 hph
      refine ⟨g1, g2, ?_⟩
      have hgt : (V u).waitingFor ≠ t := by
        intro heq
        rw [heq] at hgw
        exact huw hgw.symm
      by_cases hgw' : (V u).waitingFor = (V t).joinWaiter
      · rw [hgw', hw]
        rw [hgw'] at hgw hgd
        exact ⟨hgw, by simp, by simp, hgd⟩
      · rw [hother _ hgt hgw']
        exact ⟨hgw, hgu, hgz, hgd⟩
    · intro u hu1 hu2 hph
      by_cases hut : u = t
      · rw [hut, hself] at hph
        cases hph
      by_cases huw : u = (V t).joinWaiter
      · rw [huw, hw] at hph
        cases hph
      · rw [hother u hut huw] at hph ⊢
        exact hv.dead u hu1 hu2 hph
  · have hnone : ∀ w : Int, 0 ≤ w → w < n → ¬ V.Waits w t :=
      fun w hw1 hw2 => hv.no_waiter (by omega) hw1 hw2
    by_cases hd : (V t).detached = true
    · have heq : V.terminate t code true = V.recycle t := by
        funext u
        by_cases hut : u = t <;>
          simp [Table.terminate, Table.release, Table.recycle, Table.set, h0, hd, hut]
      rw [heq]
      exact hv.recycle (by rw [ht]; decide) hnone
    · have heq : V.terminate t code true = V.set t ((V t).die code) := by
        simp [Table.terminate, Table.release, h0, hd]
      rw [heq] at hj ⊢
      refine hv.set hj (fun hx => ?_) (fun _ => ?_) fun w hw1 hw2 hw => absurd hw (hnone w hw1 hw2)
      · cases hx
      · simpa [h0] using hd

/-- Every event of such runs keeps the two ends of the relation in step. -/
theorem Exact.apply (hv : V.Exact n) {e : JoinEvent} (he : V.Strict n e) : (V.apply e).Exact n := by
  have hj := hv.toJoinersWait.apply (Strict.legal he)
  cases e with
  | skip => exact hv
  | create t =>
    obtain ⟨h1, h2, hu⟩ := he
    refine hv.set hj (fun hx => ?_) (fun hx => ?_) fun w hw1 hw2 hw => ?_
    · cases hx
    · cases hx
    · exact absurd hw (hv.no_waiter (hv.unused t h1 h2 hu) hw1 hw2)
  | suspend w =>
    have hw : (V w).phase = .alive := he
    -- a thread that suspends itself was alive and stays so
    have hsame : V.apply (.suspend w) = V := by
      funext u
      by_cases hu : u = w
      · subst hu
        change V.set u (V u).suspend u = V u
        rw [set_self, Slot.suspend, ← hw]
      · exact set_ne V _ hu
    rw [hsame]
    exact hv
  | wait w t p => exact hv.wait he
  | detach t =>
    obtain ⟨hu, hz, hneg⟩ := he
    refine hv.set hj (fun hx => ⟨hx, rfl⟩) (fun hx => absurd hx hz) fun w hw1 hw2 hw => ?_
    exact absurd hw (hv.no_waiter hneg hw1 hw2)
  | collect t =>
    have hz : (V t).phase = .zombie := he
    -- nobody waits for a zombie, nor for a slot outside the table
    by_cases hrange : 0 ≤ t ∧ t < n
    · have hneg := (hv.dead t hrange.1 hrange.2 hz).1
      exact hv.recycle (by rw [hz]; decide) fun w hw1 hw2 => hv.no_waiter (by omega) hw1 hw2
    · refine hv.recycle (by rw [hz]; decide) fun w hw1 hw2 hw => hrange ?_
      have ht := hv.target w hw1 hw2 hw.1
      rw [hw.2] at ht
      exact ⟨ht.1, ht.2.1⟩
  | terminate t code now =>
    obtain ⟨h1, h2, ht, rfl⟩ := he
    exact hv.terminate h1 h2 ht

/-- `schedule` has nothing to reclaim. -/
theorem Exact.reclaim (hv : V.Exact n) {t : Int} (h1 : 0 ≤ t) (h2 : t < n) :
    V.reclaim n t = V := by
  unfold Table.reclaim
  rw [if_neg]
  rintro ⟨hz, hcond⟩
  obtain ⟨hneg, hdet⟩ := hv.dead t h1 h2 hz
  rw [hneg, hdet] at hcond
  rcases hcond with hw | hd
  · omega
  · cases hd

/-! ## One slot -/

/-- What an event of such runs makes of the slot `u`. -/
inductive SlotStep (V : Table) (u : Int) : JoinEvent → Slot → Prop
  | same {e : JoinEvent} : (∀ code now, e ≠ .terminate u code now) → SlotStep V u e (V u)
  | create : (V u).phase = .unused → SlotStep V u (.create u) (V u).create
  | wait {t : Int} {p : UInt64} : (V u).phase = .alive → SlotStep V u (.wait u t p) ((V u).wait t p)
  | joined {w : Int} {p : UInt64} : (V u).phase ≠ .unused → (V u).phase ≠ .zombie →
      SlotStep V u (.wait w u p) ((V u).setJoinWaiter w)
  | detach : (V u).phase ≠ .unused → (V u).phase ≠ .zombie → SlotStep V u (.detach u) (V u).detach
  | collect : (V u).phase = .zombie → SlotStep V u (.collect u) .free
  | released {t code : Int} : 0 ≤ u → (V t).joinWaiter = u → (V t).phase = .alive → V.Waits u t →
      SlotStep V u (.terminate t code true) (V u).release
  | freed {code : Int} : (V u).phase = .alive → SlotStep V u (.terminate u code true) .free
  | died {code : Int} : (V u).phase = .alive → (V u).joinWaiter < 0 →
      SlotStep V u (.terminate u code true) ((V u).die code)

theorem Exact.slotStep_terminate (hv : V.Exact n) {t code : Int} (h1 : 0 ≤ t) (h2 : t < n)
    (ht : (V t).phase = .alive) (u : Int) :
    SlotStep V u (.terminate t code true) (V.terminate t code true u) := by
  by_cases hut : u = t
  · subst hut
    by_cases hfree : 0 ≤ (V u).joinWaiter ∨ (V u).detached = true
    · have heq : V.terminate u code true u = .free := by
        unfold Table.terminate Table.recycle
        rw [if_pos ⟨rfl, hfree⟩, set_self]
      rw [heq]
      exact .freed ht
    · have hneg : ¬ 0 ≤ (V u).joinWaiter := fun h0 => hfree (.inl h0)
      have heq : V.terminate u code true u = (V u).die code := by
        unfold Table.terminate Table.release
        rw [if_neg fun hc => hfree hc.2, if_neg hneg, set_self]
      rw [heq]
      exact .died ht (by omega)
  · -- outside the dying slot only its joiner changes
    have hrest : V.terminate t code true u =
        ((V.set t ((V t).die code)).release (V t).joinWaiter) u := by
      unfold Table.terminate
      split
      · exact set_ne _ _ hut
      · rfl
    rw [hrest]
    unfold Table.release
    by_cases hw : 0 ≤ (V t).joinWaiter ∧ u = (V t).joinWaiter
    · obtain ⟨h0, rfl⟩ := hw
      rw [if_pos h0, set_self, set_ne V _ hut]
      exact .released h0 rfl ht (hv.toJoinersWait.joiner h1 h2 (mayStop_of_alive ht) h0).2
    · have hsame : (if 0 ≤ (V t).joinWaiter then
          (V.set t ((V t).die code)).set (V t).joinWaiter
            ((V.set t ((V t).die code)) (V t).joinWaiter).release
          else V.set t ((V t).die code)) u = V u := by
        split
        · rename_i h0
          rw [set_ne _ _ fun heq => hw ⟨h0, heq⟩, set_ne V _ hut]
        · exact set_ne V _ hut
      rw [hsame]
      refine .same ?_
      rintro code' now heq
      cases heq
      exact hut rfl

/-- The event of a step and a slot before it determine the slot after it. -/
theorem Exact.slotStep (hv : V.Exact n) {e : JoinEvent} (he : V.Strict n e) (u : Int) :
    SlotStep V u e (V.apply e u) := by
  have hset : ∀ {t : Int} {x : Slot} {e : JoinEvent}, SlotStep V t e x →
      (∀ code now, e ≠ .terminate u code now) → SlotStep V u e (V.set t x u) := by
    intro t x e hx hne
    by_cases hut : u = t
    · subst hut
      rw [set_self]
      exact hx
    · rw [set_ne V x hut]
      exact .same hne
  cases e with
  | skip => exact .same nofun
  | create t => exact hset (.create he.2.2) nofun
  | suspend w =>
    have hw : (V w).phase = .alive := he
    have hsame : (V w).suspend = V w := by rw [Slot.suspend, ← hw]
    show SlotStep V u _ (V.set w (V w).suspend u)
    rw [hsame]
    exact hset (.same nofun) nofun
  | wait w t p =>
    obtain ⟨⟨-, -, hw⟩, hne, -, -, hu, hz, -, -⟩ := he
    show SlotStep V u _ (V.wait w t p u)
    unfold Table.wait
    rw [set_ne V _ (Ne.symm hne)]
    by_cases hut : u = t
    · subst hut
      rw [set_self]
      exact .joined hu hz
    · rw [set_ne _ _ hut]
      exact hset (.wait hw) nofun
  | detach t => exact hset (.detach he.1 he.2.1) nofun
  | collect t => exact hset (.collect he) nofun
  | terminate t code now =>
    obtain ⟨h1, h2, ht, rfl⟩ := he
    exact hv.slotStep_terminate h1 h2 ht u

end Table

end Ccos
