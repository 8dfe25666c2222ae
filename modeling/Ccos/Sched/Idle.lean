import Mathlib.Tactic
import Ccos.Console.Devices
import Ccos.Kernel.Trace

/-!
# Idle threads

The slots below `MAX_HARTS` belong to the idle threads.  `thread_sys_detach` compares its target
with `MAX_HARTS`, `thread_sys_kill` looks at `can_be_killed`, and `thread_sys_join` only refuses
`tid <= 0`.
-/

namespace Ccos

open Reasoning

/-! ## Run queues never touch an idle slot -/

/-- The tail of a queue: none, or a slot that may be queued. -/
def IsTail (cfg : Config) (t : Int) : Prop :=
  t = -1 ∨ ((cfg.maxHarts : Int) ≤ t ∧ t < cfg.threadMax)

def TailsIn (cfg : Config) (r : RunQueues) : Prop :=
  ∀ h, h < cfg.maxHarts → IsTail cfg (r.queues h).tail

/-- An operation that keeps the tails and the `rq_next` and `on_rq` of every idle slot. -/
def Spares (cfg : Config) (r r' : RunQueues) : Prop :=
  TailsIn cfg r → TailsIn cfg r' ∧
    ∀ i : Int, 0 ≤ i → i < cfg.maxHarts → r'.rqNext i = r.rqNext i ∧ r'.onRq i = r.onRq i

section Queues

variable {cfg : Config} {r r' r'' : RunQueues}

theorem Spares.refl (r : RunQueues) : Spares cfg r r := fun ht => ⟨ht, fun _ _ _ => ⟨rfl, rfl⟩⟩

theorem Spares.trans (h₁ : Spares cfg r r') (h₂ : Spares cfg r' r'') : Spares cfg r r'' := by
  intro ht
  obtain ⟨ht₁, hs₁⟩ := h₁ ht
  obtain ⟨ht₂, hs₂⟩ := h₂ ht₁
  refine ⟨ht₂, fun i h1 h2 => ?_⟩
  rw [(hs₂ i h1 h2).1, (hs₂ i h1 h2).2]
  exact hs₁ i h1 h2

theorem Spares.setNext {t : Int} (n : Int) (ht : t < 0 ∨ (cfg.maxHarts : Int) ≤ t) :
    Spares cfg r (r.setNext t n) := by
  refine fun htails => ⟨htails, fun i h1 h2 => ?_⟩
  have hne : i ≠ t := by omega
  exact ⟨by rw [RunQueues.setNext_rqNext, if_neg hne], rfl⟩

theorem Spares.setOnRq {t : Int} (b : Bool) (ht : t < 0 ∨ (cfg.maxHarts : Int) ≤ t) :
    Spares cfg r (r.setOnRq t b) := by
  refine fun htails => ⟨htails, fun i h1 h2 => ?_⟩
  have hne : i ≠ t := by omega
  exact ⟨rfl, by rw [RunQueues.setOnRq_onRq, if_neg hne]⟩

theorem Spares.unlink {t : Int} (ht : t < 0 ∨ (cfg.maxHarts : Int) ≤ t) :
    Spares cfg r (r.unlink t) :=
  (Spares.setOnRq false ht).trans (Spares.setNext (-1) ht)

theorem Spares.modQueue {h : Nat} {f : RunQueue → RunQueue}
    (hf : h < cfg.maxHarts → IsTail cfg (r.queues h).tail → IsTail cfg (f (r.queues h)).tail) :
    Spares cfg r (r.modQueue h f) := by
  refine fun htails => ⟨fun k hk => ?_, fun i _ _ => ⟨rfl, rfl⟩⟩
  rw [RunQueues.modQueue_queues]
  split
  · rename_i heq
    subst heq
    exact hf hk (htails k hk)
  · exact htails k hk

theorem rqPushTail_spares {h : Nat} {t : Int} (hp : rqPushTail cfg r h t = .ok r') :
    Spares cfg r r' := by
  unfold rqPushTail at hp
  by_cases h1 : cfg.maxHarts ≤ h
  · rw [if_pos h1, Except.ok.injEq] at hp
    exact hp ▸ .refl r
  by_cases h2 : t < 0 ∨ (cfg.threadMax : Int) ≤ t
  · rw [if_neg h1, if_pos h2, Except.ok.injEq] at hp
    exact hp ▸ .refl r
  by_cases h3 : t < cfg.maxHarts
  · rw [if_neg h1, if_neg h2, if_pos h3, Except.ok.injEq] at hp
    exact hp ▸ .refl r
  by_cases h4 : r.onRq t = true
  · rw [if_neg h1, if_neg h2, if_neg h3, if_pos h4] at hp
    cases hp
  have hpos := cfg.maxHarts_pos
  have hup : t < 0 ∨ (cfg.maxHarts : Int) ≤ t := by omega
  have hnew : IsTail cfg t := .inr (by omega)
  rw [if_neg h1, if_neg h2, if_neg h3, if_neg h4] at hp
  dsimp only at hp
  rw [Except.ok.injEq] at hp
  subst hp
  intro htails
  have htail := htails h (by omega)
  refine Spares.trans ?_ ((Spares.setOnRq true hup).trans (Spares.modQueue fun _ hk => hk)) htails
  by_cases ht : (r.queues h).tail = -1
  · rw [if_pos ht]
    exact (Spares.setNext (-1) hup).trans (Spares.modQueue fun _ _ => hnew)
  · -- the old tail is a slot that may be queued
    rw [if_neg ht]
    have hold : (r.queues h).tail < 0 ∨ (cfg.maxHarts : Int) ≤ (r.queues h).tail := by
      rcases htail with htail | htail
      · exact absurd htail ht
      · exact .inr htail.1
    exact ((Spares.setNext (-1) hup).trans (Spares.setNext t hold)).trans
      (Spares.modQueue fun _ _ => hnew)

theorem rqPopHead_spares (hl : LinksIn cfg r) (h : Nat) :
    Spares cfg r (rqPopHead cfg r h).2 := by
  unfold rqPopHead
  by_cases h1 : cfg.maxHarts ≤ h
  · rw [if_pos h1]
    exact .refl r
  by_cases h2 : (r.queues h).head < 0
  · rw [if_neg h1]
    dsimp only
    rw [if_pos h2]
    exact .refl r
  · rw [if_neg h1]
    dsimp only
    rw [if_neg h2]
    have hhead : (r.queues h).head < 0 ∨ (cfg.maxHarts : Int) ≤ (r.queues h).head := by
      rcases hl.head h (by omega) with hneg | hin
      · exact .inl hneg
      · exact .inr hin.1
    refine Spares.trans (Spares.modQueue fun _ htail => ?_) (Spares.unlink hhead)
    show IsTail cfg (if _ then -1 else (r.queues h).tail)
    split
    · exact .inl rfl
    · exact htail

theorem schedulePick_spares {threads : Int → Thread} {h : Nat} {idle next : Int} {fuel : Nat}
    (hl : LinksIn cfg r) (hp : schedulePick cfg threads h idle fuel r = .ok (next, r')) :
    Spares cfg r r' := by
  induction fuel generalizing r with
  | zero => cases hp
  | succ fuel ih =>
    have hpop := rqPopHead_spares hl h
    have hlinks : LinksIn cfg (rqPopHead cfg r h).2 := by
      rcases @rqPopHead_cases cfg r h with ⟨heq, -⟩ | ⟨-, -, -, -, hlinks⟩
      · rw [heq]
        exact hl
      · exact hlinks hl
    unfold schedulePick at hp
    dsimp only at hp
    split_ifs at hp
    · cases hp
      exact hpop
    · cases hp
      exact hpop
    · exact hpop.trans (ih hlinks hp)

theorem rqRemoveLoop_spares {h : Nat} {t prev cur ret : Int} {fuel : Nat} (hl : LinksIn cfg r)
    (hprev : IsTail cfg prev) (hcur : IsLink cfg cur)
    (hp : rqRemoveLoop h t fuel r prev cur = .ok (ret, r')) : Spares cfg r r' := by
  induction fuel generalizing prev cur with
  | zero => cases hp
  | succ fuel ih =>
    unfold rqRemoveLoop at hp
    by_cases h1 : cur < 0
    · rw [if_pos h1, Except.ok.injEq, Prod.mk.injEq] at hp
      exact hp.2 ▸ .refl r
    have hin := hcur.resolve_left h1
    have hprev' : prev < 0 ∨ (cfg.maxHarts : Int) ≤ prev := by
      rcases hprev with hprev | hprev <;> omega
    by_cases h2 : cur = t
    · rw [if_neg h1, if_pos h2, Except.ok.injEq, Prod.mk.injEq] at hp
      rw [← hp.2]
      refine Spares.trans ?_ (Spares.unlink (.inr hin.1))
      have hhead :
          Spares cfg r (if prev < 0 then r.modQueue h fun q => { q with head := r.rqNext cur }
          else r.setNext prev (r.rqNext cur)) := by
        split
        · exact Spares.modQueue fun _ htail => htail
        · exact Spares.setNext _ hprev'
      refine hhead.trans ?_
      generalize (if prev < 0 then r.modQueue h fun q => { q with head := r.rqNext cur }
        else r.setNext prev (r.rqNext cur)) = r₁
      refine Spares.modQueue fun _ htail => ?_
      show IsTail cfg (if (r₁.queues h).tail = cur then prev else (r₁.queues h).tail)
      split
      · exact hprev
      · exact htail
    · rw [if_neg h1, if_neg h2] at hp
      exact ih (.inr hin) (hl.next cur hin.1 hin.2) hp

theorem rqRemoveAny_spares {t ret : Int} (hl : LinksIn cfg r)
    (hp : rqRemoveAny cfg r t = .ok (ret, r')) : Spares cfg r r' := by
  have hremove : ∀ {r r' : RunQueues} {h : Nat} {ret : Int}, LinksIn cfg r →
      rqRemove cfg r h t = .ok (ret, r') → Spares cfg r r' := by
    intro r r' h ret hl hp
    unfold rqRemove at hp
    split_ifs at hp
    · cases hp
      exact .refl r
    · cases hp
      exact .refl r
    · exact rqRemoveLoop_spares hl (.inl rfl) (hl.head h (by omega)) hp
  have hloop : ∀ (n h : Nat) (r : RunQueues), LinksIn cfg r →
      rqRemoveAnyLoop cfg t n h r = .ok (ret, r') → Spares cfg r r' := by
    intro n
    induction n with
    | zero =>
      intro h r _ hp
      cases hp
      exact .refl _
    | succ n ih =>
      intro h r hl hp
      simp only [rqRemoveAnyLoop, bind_eq_ok] at hp
      obtain ⟨⟨ret₁, r₁⟩, hrem, hp⟩ := hp
      dsimp only at hp
      have hfirst := hremove hl hrem
      split at hp
      · cases hp
        exact hfirst
      · exact hfirst.trans (ih (h + 1) r₁ (rqRemove_links hl hrem).1 hp)
  unfold rqRemoveAny at hp
  split at hp
  · cases hp
    exact .refl r
  · exact hloop _ _ _ hl hp

end Queues

/-! ## What idle slots look like -/

variable {cfg : Config} {s s' : Kernel} {h : Nat}

/-- Slot `t` holds nothing that leads to an idle thread: its joiner is a user thread, and an idle
thread is not detached and has run on its own hart only. -/
structure Apart (cfg : Config) (t : Int) (x : Thread) : Prop where
  joiner : x.joinWaiter < 0 ∨ (cfg.maxHarts : Int) ≤ x.joinWaiter
  home : t < cfg.maxHarts → x.detached = false ∧ (x.lastHart < 0 ∨ x.lastHart = t) ∧
    (x.runningHart < 0 ∨ x.runningHart = t)

/-- Writes to the other fields. -/
theorem Apart.of_eq {t : Int} {x y : Thread} (hx : Apart cfg t x) (hj : y.joinWaiter = x.joinWaiter)
    (hd : y.detached = x.detached) (hl : y.lastHart = x.lastHart)
    (hr : y.runningHart = x.runningHart) : Apart cfg t y := by
  refine ⟨?_, ?_⟩
  · rw [hj]
    exact hx.joiner
  · rw [hd, hl, hr]
    exact hx.home

/-- Writes to a user thread. -/
theorem Apart.of_user {t : Int} {x : Thread} (ht : (cfg.maxHarts : Int) ≤ t)
    (hj : x.joinWaiter < 0 ∨ (cfg.maxHarts : Int) ≤ x.joinWaiter) : Apart cfg t x :=
  ⟨hj, fun hlt => by omega⟩

/-- Idle slots are out of reach. -/
structure IdleApart (cfg : Config) (s : Kernel) : Prop where
  tails : TailsIn cfg s.rq
  slots : ∀ t : Int, 0 ≤ t → t < cfg.threadMax → Apart cfg t (s.threads t)

theorem IdleApart.modThread {t : Int} {f : Thread → Thread} (hi : IdleApart cfg s)
    (hf : 0 ≤ t → t < cfg.threadMax → Apart cfg t (s.threads t) → Apart cfg t (f (s.threads t))) :
    IdleApart cfg (s.modThread t f) := by
  refine ⟨hi.tails, fun u h1 h2 => ?_⟩
  by_cases hu : u = t
  · subst hu
    rw [Kernel.modThread_threads, if_pos rfl]
    exact hf h1 h2 (hi.slots u h1 h2)
  · rw [modThread_other hu]
    exact hi.slots u h1 h2

/-- Writes that keep every thread's part and spare the idle slots of the queues. -/
theorem IdleApart.of_threads (hi : IdleApart cfg s) (hrq : Spares cfg s.rq s'.rq)
    (hth : ∀ u : Int, 0 ≤ u → u < cfg.threadMax → Apart cfg u (s.threads u) →
      Apart cfg u (s'.threads u)) :
    IdleApart cfg s' :=
  ⟨(hrq hi.tails).1, fun u h1 h2 => hth u h1 h2 (hi.slots u h1 h2)⟩

theorem threadMakeRunnable_spares {t : Int} {p : Nat}
    (hw : threadMakeRunnable cfg s h t p = .ok s') : Spares cfg s.rq s'.rq := by
  rcases threadMakeRunnable_cases hw with ⟨rfl, -⟩ | ⟨rq, hw⟩
  · exact .refl _
  · rw [hw.rq_eq]
    exact rqPushTail_spares hw.push

theorem IdleApart.wake {t : Int} {p : Nat} (hi : IdleApart cfg s)
    (hw : threadMakeRunnable cfg s h t p = .ok s') : IdleApart cfg s' := by
  refine hi.of_threads (threadMakeRunnable_spares hw) fun u _ _ hu => ?_
  rcases threadMakeRunnable_cases hw with ⟨rfl, -⟩ | ⟨rq, hw⟩
  · exact hu
  · rw [hw.threads]
    split
    · exact hu.of_eq rfl rfl rfl rfl
    · exact hu

theorem recycleThread_spares {t : Int} (ht : (cfg.maxHarts : Int) ≤ t) :
    Spares cfg s.rq (recycleThread cfg s t).rq := by
  unfold recycleThread
  split_ifs
  · exact .refl _
  · exact Spares.unlink (.inr ht)
  · exact Spares.unlink (.inr ht)

theorem IdleApart.recycle {t : Int} (hi : IdleApart cfg s) (ht : (cfg.maxHarts : Int) ≤ t) :
    IdleApart cfg (recycleThread cfg s t) := by
  refine hi.of_threads (recycleThread_spares ht) fun u h1 h2 hu => ?_
  by_cases hut : u = t
  · subst hut
    have hpos := cfg.maxHarts_pos
    rw [recycleThread_eq (by omega) h2]
    show Apart cfg u (if u = u then (s.threads u).recycled else s.threads u)
    rw [if_pos rfl]
    exact .of_user ht (.inl (by
      rw [Thread.recycled_joinWaiter]
      decide))
  · rw [recycleThread_other hut]
    exact hu

/-- Every act spares the idle slots of the queues. -/
theorem Act.spares {s₀ : Kernel} {a : Action} (hb : Basic cfg s) (ha : Act cfg h s₀ a s s') :
    Spares cfg s.rq s'.rq := by
  cases ha with
  | quiet hq =>
    rw [hq.rq]
    exact .refl _
  | wakeSleeper _ _ hw => exact threadMakeRunnable_spares hw
  | wakeReader _ _ hw => exact threadMakeRunnable_spares hw
  | wakeJoiner _ _ _ _ _ hw => exact threadMakeRunnable_spares hw
  | create _ _ _ _ _ hw =>
    have hsp := threadMakeRunnable_spares hw
    exact hsp
  | sleep _ _ hle => exact Spares.unlink (.inr hle)
  | exit _ hle => exact Spares.unlink (.inr hle)
  | kill _ _ _ hunq =>
    rcases hunq with ⟨-, ret, hrem⟩ | ⟨-, rfl⟩
    · exact rqRemoveAny_spares hb.links hrem
    · exact .refl _
  | deliver _ _ _ =>
    rw [(deliver_rest _ _).1]
    exact .refl _
  | reclaim _ hle _ _ _ => exact recycleThread_spares hle
  | collect _ hle _ _ _ => exact recycleThread_spares hle
  | _ => exact .refl _

/-- Every act keeps the idle slots apart. -/
theorem IdleApart.act {s₀ : Kernel} {a : Action} (hi₀ : IdleApart cfg s₀) (hb₀ : Basic cfg s₀)
    (hb : Basic cfg s) (hi : IdleApart cfg s) (ha : Act cfg h s₀ a s s') : IdleApart cfg s' := by
  have hspares := ha.spares hb
  cases ha with
  | quiet hq =>
    refine hi.of_threads hspares fun u _ _ hu => ?_
    have hsame := hq.threads u
    refine hu.of_eq hsame.joinWaiter hsame.detached ?_ hsame.runningHart
    rw [hsame]
  | slice _ _ => exact ⟨hi.tails, hi.slots⟩
  | wakeSleeper _ _ hw => exact hi.wake hw
  | wakeReader _ _ hw => exact hi.wake hw
  | wakeJoiner _ _ _ _ _ hw => exact hi.wake hw
  | clearReader _ => exact ⟨hi.tails, hi.slots⟩
  | @create _ t _ _ _ _ _ h1 h2 hu _ hw =>
    refine IdleApart.wake (hi.modThread fun h1 h2 hx => ?_) hw
    -- an idle slot is never `UNUSED`
    have hge : (cfg.maxHarts : Int) ≤ t := by
      by_contra hlt
      rcases (hb₀.idle t (by omega) (by omega)).1 with hst | hst <;> rw [hst] at hu <;> cases hu
    exact .of_user hge hx.joiner
  | @sleep ticks _ _ hle =>
    have hmod := hi.modThread (t := (s.cpus h).currentTid)
      (f := (Thread.sleepUntil · (s.ticks + ticks))) fun _ _ hx => .of_user hle hx.joiner
    exact hmod.of_threads (Spares.unlink (.inr hle)) fun _ _ _ hu => hu
  -- the joined slot may be an idle one; the recorded joiner is a user thread
  | @wait t p _ _ hle =>
    have hwait := hi.modThread (t := (s.cpus h).currentTid) (f := (Thread.waitFor · t p))
      fun _ _ hx => .of_user hle hx.joiner
    exact hwait.modThread fun _ _ hx => ⟨.inr hle, hx.home⟩
  | @block buf len _ _ hle =>
    refine hi.of_threads (.refl _) fun u _ _ hu => ?_
    by_cases hut : u = (s.cpus h).currentTid
    · have hj : ((blockCur s h buf len).threads u).joinWaiter = (s.threads u).joinWaiter := by
        unfold blockCur
        simp [hut]
      refine .of_user (hut ▸ hle) ?_
      rw [hj]
      exact hu.joiner
    · rw [blockCur_other hut]
      exact hu
  | @exit code _ hle =>
    have hmod := hi.modThread (t := (s.cpus h).currentTid)
      (f := (Thread.exit · (s.threads (s.cpus h).currentTid).tf code))
      fun _ _ hx => .of_user hle hx.joiner
    exact hmod.of_threads (Spares.unlink (.inr hle)) fun _ _ _ hu => hu
  | @kill t rq _ _ hle _ =>
    have hmod := hi.modThread (t := t) (f := Thread.kill) fun _ _ hx => .of_user hle hx.joiner
    exact hmod.of_threads hspares fun _ _ _ hu => hu
  | @deliver w code _ _ _ =>
    refine hi.of_threads hspares fun u _ _ hu => ?_
    by_cases huw : u = w
    · subst huw
      refine hu.of_eq ?_ ?_ ?_ ?_ <;>
        (unfold Ccos.deliver storeStatus; split <;> simp [Kernel.setA0])
    · rw [deliver_other huw]
      exact hu
  | @joinWaiter t w hterm hw =>
    refine hi.modThread fun h1 h2 hx => ⟨?_, hx.home⟩
    -- a termination clears the joiner, or puts back the one it found
    rcases hw with hneg | ⟨rfl, -⟩
    · exact .inl hneg
    · exact (hi₀.slots t h1 h2).joiner
  | detach _ _ _ hle => exact hi.modThread fun _ _ hx => .of_user hle hx.joiner
  | reclaim _ hle _ _ _ => exact hi.recycle hle
  | collect _ hle _ _ _ => exact hi.recycle hle

theorem Apart.notRunning {t : Int} {x : Thread} (hx : Apart cfg t x) :
    Apart cfg t (threadMarkNotRunning x) := by
  refine ⟨hx.joiner, fun hlt => ?_⟩
  obtain ⟨hd, hl, hr⟩ := hx.home hlt
  refine ⟨hd, ?_, .inl (by rw [threadMarkNotRunning_runningHart]; decide)⟩
  rw [threadMarkNotRunning_lastHart]
  split
  · exact hr
  · exact hl

theorem Apart.running {t : Int} {x : Thread} (hx : Apart cfg t x)
    (ht : t = h ∨ (cfg.maxHarts : Int) ≤ t) :
    Apart cfg t (threadMarkRunning (x.setState .running) h) := by
  refine ⟨hx.joiner, fun hlt => ?_⟩
  obtain ⟨hd, hl, -⟩ := hx.home hlt
  refine ⟨hd, hl, .inr ?_⟩
  rw [threadMarkRunning_runningHart]
  omega

theorem Scheduled.spares {rq rq' : RunQueues} {next : Int} (hb : Basic cfg s) (he : Entered cfg s h)
    (hs : Scheduled cfg h s rq next rq' s') : Spares cfg s.rq s'.rq := by
  have hleft : Spares cfg s.rq rq := by
    have hl := hs.left
    unfold leftRq at hl
    dsimp only at hl
    split_ifs at hl with h1 h2
    · exact rqPushTail_spares hl
    · rw [← Except.ok.inj hl]
      exact Spares.unlink (.inr (hb.harts.cur_pos he h2.1).1)
    · rw [← Except.ok.inj hl]
      exact .refl _
  rw [hs.rq_eq]
  exact hleft.trans (schedulePick_spares (leftRq_links hb.links hs.left) hs.pick)

theorem IdleApart.schedule {rq rq' : RunQueues} {next : Int} (hi : IdleApart cfg s)
    (hb : Basic cfg s) (he : Entered cfg s h) (hs : Scheduled cfg h s rq next rq' s') :
    IdleApart cfg s' := by
  refine hi.of_threads (hs.spares hb he) fun u h1 h2 hu => ?_
  have hleft : Apart cfg u ((leftKernel cfg s h rq).threads u) := by
    rw [leftKernel_threads]
    split
    · rename_i hcur
      unfold leftThread
      split_ifs with hc hz
      · exact hu.notRunning.of_eq rfl rfl rfl rfl
      · -- only user threads are reclaimed
        have hne := (not_or.mp hc).1
        rw [hcur]
        refine .of_user (hb.harts.cur_pos he hne).1 (.inl ?_)
        rw [Thread.recycled_joinWaiter]
        decide
      · exact hu.notRunning
    · exact hu
  rw [hs.threads, he.2.2.1]
  split
  · rename_i hn
    refine hleft.running ?_
    rcases hs.next_range hb he with hidle | hrange
    · exact .inl (hn.trans hidle)
    · exact .inr (hn ▸ hrange.1)
  · exact hleft

/-- A trap spares the idle slots of the queues and keeps the idle slots apart. -/
theorem trap_idleApart {regs : Trapframe} {io : TrapInput} (hb : Basic cfg s) (hi : IdleApart cfg s)
    (hg : Allowed cfg s (.trap h regs io)) (hs : step cfg s (.trap h regs io) = .ok s') :
    IdleApart cfg s' ∧ Spares cfg s.rq s'.rq := by
  obtain ⟨s₁, hran⟩ := trap_ran (fun k => IdleApart cfg k ∧ Spares cfg s.rq k.rq) hb hg hs
    ⟨hi, .refl _⟩ fun s₁ s₂ hb₁ _ _ hk hact =>
      ⟨hi.act hb hb₁ hk.1 hact, hk.2.trans (hact.spares hb₁)⟩
  obtain ⟨hi₁, hsp₁⟩ := hran.kept
  rcases hran.last with ⟨-, rq, next, rq', hsch⟩ | ⟨-, rfl⟩
  · exact ⟨hi₁.schedule hran.basic hran.entered hsch,
      hsp₁.trans (hsch.spares hran.basic hran.entered)⟩
  · exact ⟨hi₁, hsp₁⟩

theorem idleApart_init (hi : (kernelSystem cfg).init s) : IdleApart cfg s := by
  obtain ⟨s₀, s₁, tid, entry, arg, name, sstatus, hboot, hcreate, rfl⟩ := init_cases hi
  have hstart : IdleApart cfg s₀ := by
    refine ⟨fun k hk => .inl (hboot.queues.tail k hk), fun t h1 h2 => ?_⟩
    obtain ⟨-, -, -, hd, hrh, hj, -, -, -, hlh⟩ := hboot.slots t h1 h2
    refine ⟨.inl (by omega), fun _ => ⟨hd, .inl (by omega), .inl (by omega)⟩⟩
  have hmade : IdleApart cfg s₁ := by
    rcases threadCreateUser_cases hcreate with ⟨-, rfl⟩ | ⟨-, h2, hu, hmake⟩
    · exact hstart
    · refine IdleApart.wake (hstart.modThread fun h1 h2 hx => ?_) hmake
      exact ⟨hx.joiner, fun hlt => ⟨rfl, (hx.home hlt).2⟩⟩
  exact ⟨hmade.tails, hmade.slots⟩

theorem idleApart_reachable (hr : Reachable (kernelSystem cfg) s) : IdleApart cfg s := by
  have hboth : Basic cfg s ∧ IdleApart cfg s := by
    refine hr.invariant (fun s => Basic cfg s ∧ IdleApart cfg s)
      (fun s hi => ⟨basic_init hi, idleApart_init hi⟩) ?_
    rintro s e s' ⟨hb, hi⟩ hg hs
    refine ⟨basic_step hb hg hs, ?_⟩
    cases e with
    | cpuInit h =>
      obtain ⟨-, c, -, -, -, -, -, rfl⟩ := cpuInit_cases hs
      exact ⟨hi.tails, hi.slots⟩
    | enterIdle h =>
      obtain ⟨hrq, -, -, -, -, -, -, -, -, -, hth, -⟩ := enterIdle_cases hs
      refine ⟨hrq ▸ hi.tails, fun t h1 h2 => ?_⟩
      rw [hth]
      split
      · exact (hi.slots t h1 h2).running (.inl ‹_›)
      · exact hi.slots t h1 h2
    | trap h regs io => exact (trap_idleApart hb hi hg hs).1
  exact hboth.2

/-! ## System calls -/

/-- No field of an idle slot has changed but the bookkeeping of `schedule`. -/
def IdleUntouched (cfg : Config) (s s' : Kernel) : Prop :=
  ∀ i : Int, 0 ≤ i → i < cfg.maxHarts →
    s'.threads i =
      { s.threads i with
        state := (s'.threads i).state
        runningHart := (s'.threads i).runningHart
        lastHart := (s'.threads i).lastHart
        runs := (s'.threads i).runs } ∧
    ((s'.threads i).state = .runnable ∨ (s'.threads i).state = .running) ∧
    s'.rq.rqNext i = s.rq.rqNext i ∧ s'.rq.onRq i = s.rq.onRq i

/-- The thread that a `join`, `kill` or `detach` names. -/
def Action.target : Action → Option Int
  | .join t _ | .kill t | .detach t => some t
  | _ => none

/-- The caller has a negative code in `a0` and goes on. -/
def Refused (s : Kernel) (h : Nat) (s' : Kernel) : Prop :=
  (s'.cpus h).currentTid = (s.cpus h).currentTid ∧
    (s'.threads (s.cpus h).currentTid).state = (s.threads (s.cpus h).currentTid).state ∧
    (s'.threads (s.cpus h).currentTid).tf.a0.toInt64.toInt < 0

/-- The call is a `join` on an idle thread that no other thread has joined before. -/
def JoinsIdle (cfg : Config) (s : Kernel) (h : Nat) : Action → Prop
  | .join t _ => 0 < t ∧ t < cfg.maxHarts ∧
    ((s.threads t).joinWaiter < 0 ∨ (s.threads t).joinWaiter = (s.cpus h).currentTid)
  | _ => False

theorem join_refused {cur t : Int} {p : UInt64} (hno : ¬ JoinAccepts cfg s h t)
    (hs : threadSysJoin cfg s h cur t p = .ok s') :
    ∃ v : UInt64, v.toInt64.toInt < 0 ∧ s' = s.setA0 cur v := by
  unfold threadSysJoin at hs
  dsimp only at hs
  split_ifs at hs with h1 h2 h3 h4 h5 h6 h7
  · exact ⟨_, by decide, (Except.ok.inj hs).symm⟩
  · exact ⟨_, by decide, (Except.ok.inj hs).symm⟩
  · exact ⟨_, by decide, (Except.ok.inj hs).symm⟩
  · exact ⟨_, by decide, (Except.ok.inj hs).symm⟩
  · exact ⟨_, by decide, (Except.ok.inj hs).symm⟩
  · exact absurd ⟨by omega, by omega, h2, h3, by simpa using h4, by omega⟩ hno
  · exact ⟨_, by decide, (Except.ok.inj hs).symm⟩
  · exact absurd ⟨by omega, by omega, h2, h3, by simpa using h4, by omega⟩ hno

/-- An idle thread cannot be killed. -/
theorem kill_refused {cur t : Int} (hkill : (s.threads t).canBeKilled = false)
    (hs : threadSysKill cfg s h cur t = .ok s') :
    ∃ v : UInt64, v.toInt64.toInt < 0 ∧ s' = s.setA0 cur v := by
  have hk : ¬ (s.threads t).canBeKilled = true := by
    rw [hkill]
    decide
  unfold threadSysKill at hs
  dsimp only at hs
  by_cases h1 : t < 0 ∨ (cfg.threadMax : Int) ≤ t
  · rw [if_pos h1] at hs
    exact ⟨_, by decide, (Except.ok.inj hs).symm⟩
  by_cases h2 : t = 0
  · rw [if_neg h1, if_pos h2] at hs
    exact ⟨_, by decide, (Except.ok.inj hs).symm⟩
  by_cases h3 : t = (s.cpus h).currentTid
  · rw [if_neg h1, if_neg h2, if_pos h3] at hs
    exact ⟨_, by decide, (Except.ok.inj hs).symm⟩
  · rw [if_neg h1, if_neg h2, if_neg h3, if_pos hk] at hs
    exact ⟨_, by decide, (Except.ok.inj hs).symm⟩

theorem detach_refused {cur t : Int} (hidle : t < cfg.maxHarts) :
    ∃ v : UInt64, v.toInt64.toInt < 0 ∧ threadSysDetach cfg s cur t = s.setA0 cur v := by
  unfold threadSysDetach
  dsimp only
  split_ifs
  · exact ⟨_, by decide, rfl⟩
  · exact ⟨_, by decide, rfl⟩
  · exact ⟨_, by decide, rfl⟩

theorem refused_of_setA0 {regs : Trapframe} {v : UInt64} (hv : v.toInt64.toInt < 0) :
    Refused s h ((saveRegs s h regs).setA0 (s.cpus h).currentTid v) := by
  refine ⟨rfl, ?_, ?_⟩
  · rw [((Quiet.setA0 h (saveRegs s h regs) (s.cpus h).currentTid v).threads _).state,
      saveRegs_state]
  · unfold Kernel.setA0
    rw [Kernel.modThread_threads, if_pos rfl]
    exact hv

/-- A `join` on an idle thread blocks its caller. -/
theorem joinsIdle_blocks {regs : Trapframe} {io : TrapInput} (hb : Basic cfg s)
    (hi : IdleApart cfg s) (hg : Allowed cfg s (.trap h regs io))
    (hs : step cfg s (.trap h regs io) = .ok s') (hj : JoinsIdle cfg s h (trapAction cfg regs io)) :
    (s'.cpus h).currentTid ≠ (s.cpus h).currentTid := by
  obtain ⟨hrun, huser⟩ := trap_runAction hb hg hs
  have hh := hg.1.1
  have hpos := cfg.maxHarts_lt
  cases ha : trapAction cfg regs io with
  | join t p =>
    rw [ha] at hrun huser hj
    obtain ⟨h1, h2, hw⟩ := hj
    obtain ⟨hlo, hhi⟩ := huser rfl
    have hidle := (hb.idle t (by omega) h2).1
    -- no check of `thread_sys_join` turns an idle thread down
    have hacc : JoinAccepts cfg (saveRegs s h regs) h t := by
      rw [joinAccepts_saveRegs]
      refine ⟨h1, by omega, by omega, ?_, ((hi.slots t (by omega) (by omega)).home h2).1, hw⟩
      rcases hidle with hst | hst <;> rw [hst] <;> decide
    rcases threadSysJoin_cases hrun with ⟨hno, -⟩ | ⟨-, hz, -⟩ | ⟨-, -, hsch⟩
    · exact absurd hacc hno
    · rw [saveRegs_state] at hz
      rcases hidle with hst | hst <;> rw [hst] at hz <;> cases hz
    · have hne : (s.cpus h).currentTid ≠ (s.cpus h).idleTid := by
        rw [hg.1.2.2.2.1]
        omega
      have hok : ((waitCur (saveRegs s h regs) h t p).cpus h).currentTid ≠
          ((waitCur (saveRegs s h regs) h t p).cpus h).idleTid →
          0 < ((waitCur (saveRegs s h regs) h t p).cpus h).currentTid ∧
            ((waitCur (saveRegs s h regs) h t p).cpus h).currentTid < cfg.threadMax := by
        intro _
        show 0 < (s.cpus h).currentTid ∧ (s.cpus h).currentTid < cfg.threadMax
        omega
      obtain ⟨rq, next, rq', hsched⟩ := schedule_cases hok hsch
      have hstate : ((waitCur (saveRegs s h regs) h t p).threads
          ((waitCur (saveRegs s h regs) h t p).cpus h).currentTid).state = .waiting := by
        show ((waitCur (saveRegs s h regs) h t p).threads (s.cpus h).currentTid).state = .waiting
        have htc : (s.cpus h).currentTid ≠ t := by omega
        unfold waitCur
        rw [modThread_other htc]
        simp
      -- a `WAITING` thread is not picked again
      have hnext := hsched.next_ne_suspended hne (.inr (.inl hstate))
      rw [hsched.cpus_self]
      exact Ne.symm hnext
  | _ =>
    rw [ha] at hj
    cases hj

theorem idle_untouched {regs : Trapframe} {io : TrapInput} (hb : Basic cfg s) (hi : IdleApart cfg s)
    (hg : Allowed cfg s (.trap h regs io)) (hs : step cfg s (.trap h regs io) = .ok s')
    (hsys : (trapAction cfg regs io).isSyscall = true)
    (hj : ¬ JoinsIdle cfg s h (trapAction cfg regs io)) : IdleUntouched cfg s s' := by
  obtain ⟨hlo, hhi⟩ := (trap_runAction hb hg hs).2 hsys
  have hb' := basic_step hb hg hs
  have hspares := ((trap_idleApart hb hi hg hs).2 hi.tails).2
  have hlt := cfg.maxHarts_lt
  intro i h1 h2
  refine ⟨?_, (hb'.idle i h1 h2).1, hspares i h1 h2⟩
  have hidle := hb.idle i h1 h2
  have hst : (s.threads i).state ≠ .unused ∧ (s.threads i).state ≠ .zombie ∧
      (s.threads i).state ≠ .sleeping := by
    rcases hidle.1 with hst | hst <;> rw [hst] <;> decide
  have hby : Bystands cfg s h (trapAction cfg regs io) i := by
    refine ⟨h1, hst.1, by omega, ?_, ?_, ?_, ?_, ?_⟩
    · intro hterm
      rcases terminated_cases hterm with ⟨code, -, hcur⟩ | ⟨-, hhit⟩
      · omega
      · have hkill := hhit.2.2.2.1
        rw [hidle.2] at hkill
        cases hkill
    · -- recorded joiners are user threads
      rintro ⟨t, hterm, hw⟩
      have hrange : 0 ≤ t ∧ t < cfg.threadMax := by
        rcases terminated_cases hterm with ⟨code, -, hcur⟩ | ⟨-, hhit⟩
        · omega
        · exact ⟨hhit.1.le, hhit.2.1⟩
      rcases (hi.slots t hrange.1 hrange.2).joiner with hneg | hge <;> omega
    · intro hcoll
      exact hst.2.1 (collected_cases hcoll).2.2.1
    · rintro - - ⟨hsl, -⟩
      exact hst.2.2 hsl
    · intro claims ha
      rw [ha] at hsys
      cases hsys
  -- no joiner is recorded in the slot and no detach marks it
  have hmark : marked cfg s h (trapAction cfg regs io) i = s.threads i := by
    cases ha : trapAction cfg regs io with
    | join t p =>
      rw [ha] at hj
      rw [marked]
      refine if_neg ?_
      rintro ⟨rfl, hacc⟩
      exact hj ⟨hacc.1, h2, hacc.2.2.2.2.2⟩
    | detach t =>
      rw [marked]
      refine if_neg ?_
      rintro ⟨rfl, hacc⟩
      have := hacc.1
      omega
    | _ => rfl
  rcases trap_bystander hb hg hs hby with hsame | ⟨hrun, hcur, -⟩
  · rw [hsame, hmark]
  · rw [hmark] at hrun
    -- only the idle thread of this hart can be started, and it never ran elsewhere
    have hown : i = h := by
      have he' : Entered cfg s' h := by
        obtain ⟨s₁, hran⟩ := trap_ran (fun _ => True) hb hg hs trivial fun _ _ _ _ _ _ _ => trivial
        rcases hran.last with ⟨-, rq, next, rq', hsch⟩ | ⟨-, rfl⟩
        · exact (hsch.entered hran.entered h).mpr hran.entered
        · exact hran.entered
      rcases hb'.harts.curRange h he' with hc | hc <;> omega
    have hlast := ((hi.slots i h1 (by omega)).home h2).2.1
    have hmig : ¬ (0 ≤ (s.threads i).lastHart ∧ (s.threads i).lastHart ≠ h) := by omega
    rw [hrun]
    unfold threadMarkRunning
    rw [Thread.setState_lastHart, if_neg hmig]
    rfl

/-- In every reachable state, a system call of a user thread leaves the idle slots alone, and a
`join`, `kill` or `detach` that names one fails at once, exactly if it is not a `join` on an idle
thread that no other thread has joined before. -/
theorem idle_out_of_reach_iff (cfg : Config) {s s' : Kernel} {h : Nat} {regs : Trapframe}
    {io : TrapInput} (hr : Reachable (kernelSystem cfg) s) (hg : Allowed cfg s (.trap h regs io))
    (hsys : trapKind regs.scause = .ecallU) (hs : step cfg s (.trap h regs io) = .ok s') :
    (IdleUntouched cfg s s' ∧ ∀ t, (trapAction cfg regs io).target = some t → 0 ≤ t →
      t < cfg.maxHarts → Refused s h s') ↔ ¬ JoinsIdle cfg s h (trapAction cfg regs io) := by
  have hb := basic_reachable hr
  have hi := idleApart_reachable hr
  constructor
  · rintro ⟨-, hrefuse⟩ hj
    have hblock := joinsIdle_blocks hb hi hg hs hj
    cases ha : trapAction cfg regs io with
    | join t p =>
      rw [ha] at hj hrefuse
      exact hblock (hrefuse t rfl (by have := hj.1; omega) hj.2.1).1
    | _ =>
      rw [ha] at hj
      cases hj
  · intro hj
    -- an unknown number panics, so the step would not have been taken
    have hcall : (trapAction cfg regs io).isSyscall = true := by
      obtain ⟨hrun, -⟩ := trap_runAction hb hg hs
      unfold trapAction at hrun ⊢
      rw [hsys] at hrun ⊢
      dsimp only at hrun ⊢
      cases hcall : syscallOf regs with
      | unknown =>
        rw [hcall] at hrun
        cases hrun
      | _ => rfl
    refine ⟨idle_untouched hb hi hg hs hcall hj, fun t ht h0 hlt => ?_⟩
    obtain ⟨hrun, -⟩ := trap_runAction hb hg hs
    -- `join`, `kill` and `detach` each turn an idle target down by a check of their own
    have hvalue : ∃ v : UInt64, v.toInt64.toInt < 0 ∧
        s' = (saveRegs s h regs).setA0 (s.cpus h).currentTid v := by
      cases ha : trapAction cfg regs io with
      | join u p =>
        rw [ha] at ht hrun hj
        obtain rfl := Option.some.inj ht
        refine join_refused ?_ hrun
        rw [joinAccepts_saveRegs]
        exact fun hacc => hj ⟨hacc.1, hlt, hacc.2.2.2.2.2⟩
      | kill u =>
        rw [ha] at ht hrun
        obtain rfl := Option.some.inj ht
        refine kill_refused ?_ hrun
        rw [saveRegs_canBeKilled]
        exact (hb.idle u h0 hlt).2
      | detach u =>
        rw [ha] at ht hrun
        obtain rfl := Option.some.inj ht
        obtain ⟨v, hv, heq⟩ := @detach_refused cfg (saveRegs s h regs) (s.cpus h).currentTid u hlt
        cases hrun
        exact ⟨v, hv, heq⟩
      | _ =>
        rw [ha] at ht
        cases ht
    obtain ⟨v, hv, rfl⟩ := hvalue
    exact refused_of_setA0 hv

/-- `user_main` (2) asks to kill the idle thread of hart 1. -/
theorem idle_out_of_reach_iff_example :
    ∃ s s', Reachable (kernelSystem twoHarts) s ∧ Allowed twoHarts s (sysKill 0 1) ∧
      step twoHarts s (sysKill 0 1) = .ok s' ∧ IdleUntouched twoHarts s s' ∧ Refused s 0 s' := by
  obtain ⟨s, hr, hs⟩ := exists_reachable twoHarts anyStep bootOnHart0 startBoth
    (fun s => stepTo twoHarts s (sysKill 0 1) fun _ => true) (by decide +kernel)
  obtain ⟨s', hg, hstep, -⟩ := exists_step hs
  have hiff := (idle_out_of_reach_iff twoHarts hr.unrestrict hg rfl hstep).mpr not_false
  exact ⟨s, s', hr.unrestrict, hg, hstep, hiff.1, hiff.2 1 rfl (by decide) (by decide)⟩

/-- `user_main` (2) joins the idle thread of hart 1: it waits, and the idle slot records it. -/
theorem idle_joined :
    ∃ s s', Reachable (kernelSystem twoHarts) s ∧ Allowed twoHarts s (sysJoin 0 1 0) ∧
      step twoHarts s (sysJoin 0 1 0) = .ok s' ∧ (s.cpus 0).currentTid = 2 ∧
      (s.threads 1).joinWaiter = -1 ∧ (s'.threads 1).joinWaiter = 2 ∧
      (s'.threads 2).state = .waiting ∧ ¬ IdleUntouched twoHarts s s' ∧ ¬ Refused s 0 s' := by
  obtain ⟨s, hr, hs⟩ := exists_reachable twoHarts anyStep bootOnHart0 startBoth
    (fun s => decide ((s.cpus 0).currentTid = 2 ∧ (s.threads 1).joinWaiter = -1 ∧
      (s.threads 2).state = .running) &&
      stepTo twoHarts s (sysJoin 0 1 0) fun s' =>
        decide ((s'.threads 1).joinWaiter = 2 ∧ (s'.threads 2).state = .waiting))
    (by decide +kernel)
  rw [Bool.and_eq_true, decide_eq_true_eq] at hs
  obtain ⟨⟨hcur, hold, hrun⟩, hstep⟩ := hs
  obtain ⟨s', hg, hs', hend⟩ := exists_step hstep
  obtain ⟨hnew, hwait⟩ := of_decide_eq_true hend
  refine ⟨s, s', hr.unrestrict, hg, hs', hcur, hold, hnew, hwait, ?_, ?_⟩
  · intro hun
    have hsame := congrArg Thread.joinWaiter (hun 1 (by decide) (by decide)).1
    have hjoiner : (2 : Int) = -1 := (hnew.symm.trans hsame).trans hold
    exact absurd hjoiner (by decide)
  · rintro ⟨-, hst, -⟩
    rw [hcur, hwait, hrun] at hst
    cases hst

end Ccos
