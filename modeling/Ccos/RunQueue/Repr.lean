import Mathlib.Tactic
import Ccos.Kernel.RunQueue
import Ccos.Reasoning.LinkedSegment

/-!
# Run queues as lists

`RqRepr cfg r q`: the linked queues of `r` represent the lists `q h`, one per hart.  Each operation
of `runqueue.c` is shown to do to the lists what its name says, and to return.
-/

namespace Ccos

open Reasoning

structure RqRepr (cfg : Config) (r : RunQueues) (q : Nat → List Int) : Prop where
  seg : ∀ h, h < cfg.maxHarts → Segment r.rqNext (r.queues h).head (q h) (-1)
  tail : ∀ h, h < cfg.maxHarts → (r.queues h).tail = (q h).getLastD (-1)
  len : ∀ h, h < cfg.maxHarts → (r.queues h).len = (q h).length
  range : ∀ h, h < cfg.maxHarts → ∀ t ∈ q h, (cfg.maxHarts : Int) ≤ t ∧ t < cfg.threadMax
  nodup : ∀ h, h < cfg.maxHarts → (q h).Nodup
  disjoint : ∀ h k, h < cfg.maxHarts → k < cfg.maxHarts → ∀ t ∈ q h, t ∈ q k → h = k
  onRq : ∀ t, r.onRq t = true ↔ ∃ h, h < cfg.maxHarts ∧ t ∈ q h

/-- The queues with hart `h`'s list replaced. -/
def setQueue (q : Nat → List Int) (h : Nat) (xs : List Int) : Nat → List Int :=
  fun k => if k = h then xs else q k

@[simp] theorem setQueue_self (q : Nat → List Int) (h : Nat) (xs : List Int) :
    setQueue q h xs h = xs := if_pos rfl

theorem setQueue_ne (q : Nat → List Int) {h k : Nat} (xs : List Int) (hk : k ≠ h) :
    setQueue q h xs k = q k := if_neg hk

theorem exists_mem_setQueue {n : Nat} {q : Nat → List Int} {h : Nat} {xs : List Int} {u : Int}
    (hh : h < n) :
    (∃ k, k < n ∧ u ∈ setQueue q h xs k) ↔ u ∈ xs ∨ ∃ k, k < n ∧ k ≠ h ∧ u ∈ q k := by
  constructor
  · rintro ⟨k, hk, hu⟩
    by_cases hkh : k = h
    · subst hkh
      exact .inl (by simpa using hu)
    · exact .inr ⟨k, hk, hkh, by rwa [setQueue_ne q xs hkh] at hu⟩
  · rintro (hu | ⟨k, hk, hkh, hu⟩)
    · exact ⟨h, hh, by simpa using hu⟩
    · exact ⟨k, hk, by rwa [setQueue_ne q xs hkh]⟩

theorem exists_mem_split {n : Nat} {q : Nat → List Int} {h : Nat} {u : Int} (hh : h < n) :
    (∃ k, k < n ∧ u ∈ q k) ↔ u ∈ q h ∨ ∃ k, k < n ∧ k ≠ h ∧ u ∈ q k := by
  have hq : setQueue q h (q h) = q := by
    funext k
    by_cases hk : k = h
    · rw [hk, setQueue_self]
    · rw [setQueue_ne q _ hk]
  have := @exists_mem_setQueue n q h (q h) u hh
  rwa [hq] at this

namespace RqRepr

variable {cfg : Config} {r : RunQueues} {q : Nat → List Int}

theorem head_nonneg (hr : RqRepr cfg r q) {h : Nat} (hh : h < cfg.maxHarts) :
    0 ≤ (r.queues h).head ↔ q h ≠ [] := by
  have hs := hr.seg h hh
  have hrange := hr.range h hh
  cases hq : q h with
  | nil =>
    rw [hq] at hs
    simp only [segment_nil] at hs
    simp [hs]
  | cons t ts =>
    rw [hq] at hs hrange
    have ht := hrange t List.mem_cons_self
    rw [hs.1]
    simp
    omega

theorem rqLen_eq (hr : RqRepr cfg r q) {h : Nat} (hh : h < cfg.maxHarts) :
    rqLen cfg r h = (q h).length := by
  have hnot : ¬ cfg.maxHarts ≤ h := by omega
  rw [rqLen, if_neg hnot, hr.len h hh]

/-- The links determine the lists. -/
theorem unique {q' : Nat → List Int} (hr : RqRepr cfg r q) (hr' : RqRepr cfg r q') {h : Nat}
    (hh : h < cfg.maxHarts) : q h = q' h := by
  apply (hr.seg h hh).unique (hr'.seg h hh)
  · intro hm
    have := hr.range h hh _ hm
    omega
  · intro hm
    have := hr'.range h hh _ hm
    omega

/-- A tid that is not queued anywhere is outside every list. -/
theorem not_mem (hr : RqRepr cfg r q) {t : Int} (ht : r.onRq t = false) {h : Nat}
    (hh : h < cfg.maxHarts) : t ∉ q h := by
  intro hmem
  have := (hr.onRq t).mpr ⟨h, hh, hmem⟩
  simp [ht] at this

/-! ## Changes of the lists -/

/-- Writing the links of a tid that is not queued changes no queue. -/
theorem unlink (hr : RqRepr cfg r q) {t : Int} (ht : r.onRq t = false) :
    RqRepr cfg (r.unlink t) q where
  seg h hh := (hr.seg h hh).frame (hr.not_mem ht hh)
  tail := hr.tail
  len := hr.len
  range := hr.range
  nodup := hr.nodup
  disjoint := hr.disjoint
  onRq u := by
    by_cases hu : u = t
    · subst hu
      simp only [RunQueues.unlink, RunQueues.setNext_onRq, RunQueues.setOnRq_onRq, if_true,
        Bool.false_eq_true, false_iff, not_exists, not_and]
      exact fun h hh => hr.not_mem ht hh
    · simp only [RunQueues.unlink, RunQueues.setNext_onRq, RunQueues.setOnRq_onRq, hu, if_false]
      exact hr.onRq u

/-- The list of one hart is replaced; those of the other harts keep their links. -/
theorem replace (hr : RqRepr cfg r q) {h : Nat} {xs : List Int} {r' : RunQueues}
    (hh : h < cfg.maxHarts) (hqueues : ∀ k, k ≠ h → r'.queues k = r.queues k)
    (hothers : ∀ k, k < cfg.maxHarts → k ≠ h → Segment r'.rqNext (r.queues k).head (q k) (-1))
    (hseg : Segment r'.rqNext (r'.queues h).head xs (-1))
    (htail : (r'.queues h).tail = xs.getLastD (-1)) (hlen : (r'.queues h).len = xs.length)
    (hrange : ∀ t ∈ xs, (cfg.maxHarts : Int) ≤ t ∧ t < cfg.threadMax) (hnd : xs.Nodup)
    (hdis : ∀ t ∈ xs, ∀ k, k < cfg.maxHarts → t ∈ q k → k = h)
    (honRq : ∀ t, r'.onRq t = true ↔ t ∈ xs ∨ ∃ k, k < cfg.maxHarts ∧ k ≠ h ∧ t ∈ q k) :
    RqRepr cfg r' (setQueue q h xs) where
  seg k hk := by
    by_cases hkh : k = h
    · rw [hkh, setQueue_self]
      exact hseg
    · rw [setQueue_ne q xs hkh, hqueues k hkh]
      exact hothers k hk hkh
  tail k hk := by
    by_cases hkh : k = h
    · rw [hkh, setQueue_self]
      exact htail
    · rw [setQueue_ne q xs hkh, hqueues k hkh]
      exact hr.tail k hk
  len k hk := by
    by_cases hkh : k = h
    · rw [hkh, setQueue_self]
      exact hlen
    · rw [setQueue_ne q xs hkh, hqueues k hkh]
      exact hr.len k hk
  range k hk := by
    by_cases hkh : k = h
    · rw [hkh, setQueue_self]
      exact hrange
    · rw [setQueue_ne q xs hkh]
      exact hr.range k hk
  nodup k hk := by
    by_cases hkh : k = h
    · rw [hkh, setQueue_self]
      exact hnd
    · rw [setQueue_ne q xs hkh]
      exact hr.nodup k hk
  disjoint a b ha hb t hta htb := by
    -- `hdis` keeps the new list apart from the others, `hr` the others from each other
    by_cases hah : a = h <;> by_cases hbh : b = h
    · rw [hah, hbh]
    · rw [hah, setQueue_self] at hta
      rw [setQueue_ne q xs hbh] at htb
      rw [hah, hdis t hta b hb htb]
    · rw [setQueue_ne q xs hah] at hta
      rw [hbh, setQueue_self] at htb
      rw [hbh, hdis t htb a ha hta]
    · rw [setQueue_ne q xs hah] at hta
      rw [setQueue_ne q xs hbh] at htb
      exact hr.disjoint a b ha hb t hta htb
  onRq t := by rw [honRq, exists_mem_setQueue hh]

end RqRepr

section Push

variable {cfg : Config} {r : RunQueues} {q : Nat → List Int}

/-- The queues after a push that passes every check of `rq_push_tail`. -/
def pushed (r : RunQueues) (h : Nat) (t : Int) : RunQueues :=
  let tail := (r.queues h).tail
  let r' := r.setNext t (-1)
  let r' :=
    if tail = -1 then r'.modQueue h fun q => { q with head := t, tail := t }
    else (r'.setNext tail t).modQueue h fun q => { q with tail := t }
  (r'.setOnRq t true).modQueue h fun q => { q with len := q.len + 1 }

theorem rqPushTail_eq {h : Nat} {t : Int} (hh : h < cfg.maxHarts) (h1 : (cfg.maxHarts : Int) ≤ t)
    (h2 : t < cfg.threadMax) (ht : r.onRq t = false) :
    rqPushTail cfg r h t = .ok (pushed r h t) := by
  have ha : ¬ cfg.maxHarts ≤ h := by omega
  have hb : ¬ (t < 0 ∨ (cfg.threadMax : Int) ≤ t) := by omega
  have hc : ¬ t < cfg.maxHarts := by omega
  simp only [rqPushTail, if_neg ha, if_neg hb, if_neg hc, ht, Bool.false_eq_true, if_false, pushed]

@[simp] theorem pushed_onRq (r : RunQueues) (h : Nat) (t u : Int) :
    (pushed r h t).onRq u = if u = t then true else r.onRq u := by
  unfold pushed
  dsimp only
  split <;> simp

theorem pushed_queues_ne (r : RunQueues) {h k : Nat} (t : Int) (hk : k ≠ h) :
    (pushed r h t).queues k = r.queues k := by
  unfold pushed
  dsimp only
  split <;> simp [hk]

theorem pushed_len (r : RunQueues) (h : Nat) (t : Int) :
    ((pushed r h t).queues h).len = (r.queues h).len + 1 := by
  unfold pushed
  dsimp only
  split <;> simp

theorem pushed_head (r : RunQueues) (h : Nat) (t : Int) :
    ((pushed r h t).queues h).head =
      if (r.queues h).tail = -1 then t else (r.queues h).head := by
  unfold pushed
  dsimp only
  split <;> simp

theorem pushed_rqNext (r : RunQueues) (h : Nat) (t : Int) :
    (pushed r h t).rqNext =
      if (r.queues h).tail = -1 then (r.setNext t (-1)).rqNext
      else ((r.setNext t (-1)).setNext (r.queues h).tail t).rqNext := by
  unfold pushed
  dsimp only
  split <;> rfl

theorem pushed_tail (r : RunQueues) (h : Nat) (t : Int) :
    ((pushed r h t).queues h).tail = t := by
  unfold pushed
  dsimp only
  split <;> simp

/-- The list of the target hart after a push: the old tail, if any, now links to the new node. -/
theorem pushed_segment (hr : RqRepr cfg r q) {h : Nat} {t : Int} (hh : h < cfg.maxHarts)
    (ht : r.onRq t = false) :
    Segment (pushed r h t).rqNext ((pushed r h t).queues h).head (q h ++ [t]) (-1) := by
  have hseg := hr.seg h hh
  have htail := hr.tail h hh
  have hnot := hr.not_mem ht hh
  have hnodup := hr.nodup h hh
  rcases List.eq_nil_or_concat (q h) with hq | ⟨xs, l, hq⟩
  · rw [hq] at hseg htail ⊢
    simp only [List.getLastD_nil] at htail
    simp [pushed_head, pushed_rqNext, htail]
  · rw [List.concat_eq_append] at hq
    rw [hq] at hseg htail hnot hnodup ⊢
    have hl := (hr.range h hh l (by rw [hq]; simp)).1
    have hlt : l ≠ t := by
      intro heq
      exact hnot (by simp [heq])
    have hlxs : l ∉ xs := by
      simp only [List.nodup_append, List.mem_singleton] at hnodup
      intro hmem
      exact hnodup.2.2 l hmem l rfl rfl
    have htl : (r.queues h).tail = l := by simpa using htail
    have hne : ¬ l = -1 := by omega
    rw [pushed_head, pushed_rqNext, htl, if_neg hne, if_neg hne]
    refine segment_append.mpr ⟨t, ?_, ?_⟩
    · exact (hseg.frame (n := -1) hnot).redirect (n := t) hlxs
    · simp [hlt.symm]

/-- The other harts keep their links: the old tail of `h` is in `q h`, hence in no other list. -/
theorem pushed_segment_ne (hr : RqRepr cfg r q) {h k : Nat} {t : Int} (hh : h < cfg.maxHarts)
    (hk : k < cfg.maxHarts) (hkh : k ≠ h) (ht : r.onRq t = false) :
    Segment (pushed r h t).rqNext (r.queues k).head (q k) (-1) := by
  have hs := (hr.seg k hk).frame (n := -1) (hr.not_mem ht hk)
  rw [pushed_rqNext]
  split
  · exact hs
  · rename_i htail
    have hmem : (r.queues h).tail ∈ q h := by
      rw [hr.tail h hh] at htail ⊢
      rcases List.eq_nil_or_concat (q h) with hq | ⟨xs, l, hq⟩
      · simp [hq] at htail
      · rw [hq]
        simp
    have hnot : (r.queues h).tail ∉ q k := fun hm => hkh (hr.disjoint k h hk hh _ hm hmem)
    exact hs.frame hnot

theorem pushed_repr (hr : RqRepr cfg r q) {h : Nat} {t : Int} (hh : h < cfg.maxHarts)
    (h1 : (cfg.maxHarts : Int) ≤ t) (h2 : t < cfg.threadMax) (ht : r.onRq t = false) :
    RqRepr cfg (pushed r h t) (setQueue q h (q h ++ [t])) := by
  apply hr.replace hh (fun k hk => pushed_queues_ne r t hk)
    (fun k hk hkh => pushed_segment_ne hr hh hk hkh ht) (pushed_segment hr hh ht)
  · simp [pushed_tail]
  · simp [pushed_len, hr.len h hh]
  · intro u hu
    rw [List.mem_append, List.mem_singleton] at hu
    rcases hu with hu | rfl
    · exact hr.range h hh u hu
    · exact ⟨h1, h2⟩
  · rw [List.nodup_append]
    refine ⟨hr.nodup h hh, List.nodup_singleton t, ?_⟩
    intro a ha b hb
    rw [List.mem_singleton] at hb
    subst hb
    exact fun heq => hr.not_mem ht hh (heq ▸ ha)
  · intro u hu k hk huk
    rw [List.mem_append, List.mem_singleton] at hu
    rcases hu with hu | rfl
    · exact hr.disjoint k h hk hh u huk hu
    · exact absurd huk (hr.not_mem ht hk)
  · intro u
    rw [pushed_onRq, List.mem_append, List.mem_singleton]
    by_cases hu : u = t
    · simp [hu]
    · rw [if_neg hu, hr.onRq u, exists_mem_split hh]
      simp only [hu, or_false]

/-- `rq_push_tail` of an unqueued, non-idle tid appends it to the list of that hart. -/
theorem rqPushTail_spec (hr : RqRepr cfg r q) {h : Nat} {t : Int} (hh : h < cfg.maxHarts)
    (h1 : (cfg.maxHarts : Int) ≤ t) (h2 : t < cfg.threadMax) (ht : r.onRq t = false) :
    ∃ r', rqPushTail cfg r h t = .ok r' ∧ RqRepr cfg r' (setQueue q h (q h ++ [t])) ∧
      ∀ u, r'.onRq u = if u = t then true else r.onRq u :=
  ⟨pushed r h t, rqPushTail_eq hh h1 h2 ht, pushed_repr hr hh h1 h2 ht, pushed_onRq r h t⟩

end Push

section Remove

variable {cfg : Config} {r : RunQueues} {q : Nat → List Int}

/-- What any removal of one node has to establish; the other harts' lists are untouched. -/
theorem RqRepr.remove_of (hr : RqRepr cfg r q) {h : Nat} {t : Int} {pre post : List Int}
    (hh : h < cfg.maxHarts) (hq : q h = pre ++ t :: post) {r' : RunQueues}
    (hseg : Segment r'.rqNext (r'.queues h).head (pre ++ post) (-1))
    (htail : (r'.queues h).tail = (pre ++ post).getLastD (-1))
    (hlen : (r'.queues h).len = (pre ++ post).length)
    (hqueues : ∀ k, k ≠ h → r'.queues k = r.queues k)
    (hnext : ∀ u, u ∉ q h → r'.rqNext u = r.rqNext u)
    (honRq : ∀ u, r'.onRq u = if u = t then false else r.onRq u) :
    RqRepr cfg r' (setQueue q h (pre ++ post)) := by
  have hnd := hr.nodup h hh
  rw [hq] at hnd
  have hsub : ∀ u, u ∈ pre ++ post → u ∈ q h := by
    intro u hu
    rw [hq]
    simp only [List.mem_append, List.mem_cons] at hu ⊢
    tauto
  obtain ⟨htnot, hnd'⟩ := List.nodup_cons.mp (List.nodup_middle.mp hnd)
  apply hr.replace hh hqueues ?_ hseg htail hlen (fun u hu => hr.range h hh u (hsub u hu)) hnd'
    (fun u hu k hk huk => hr.disjoint k h hk hh u huk (hsub u hu))
  · intro u
    rw [honRq]
    by_cases hu : u = t
    · subst hu
      simp only [if_true, Bool.false_eq_true, false_iff, not_or, not_exists, not_and]
      refine ⟨htnot, fun k hk hkh huk => hkh ?_⟩
      exact hr.disjoint k h hk hh u huk (by rw [hq]; simp)
    · rw [if_neg hu, hr.onRq u, exists_mem_split hh, hq]
      simp [hu]
  · intro k hk hkh
    apply (hr.seg k hk).congr
    intro x hx
    exact hnext x fun hxh => hkh (hr.disjoint k h hk hh x hx hxh)

/-- The queues after the body of `rq_remove` has found `cur` behind `prev`. -/
def cut (r : RunQueues) (h : Nat) (prev cur : Int) : RunQueues :=
  let nxt := r.rqNext cur
  let r' :=
    if prev < 0 then r.modQueue h fun q => { q with head := nxt }
    else r.setNext prev nxt
  (r'.modQueue h fun q =>
    { q with tail := if q.tail = cur then prev else q.tail, len := q.len - 1 }).unlink cur

theorem cut_onRq (r : RunQueues) (h : Nat) (prev cur u : Int) :
    (cut r h prev cur).onRq u = if u = cur then false else r.onRq u := by
  unfold cut RunQueues.unlink
  dsimp only
  split <;> simp

theorem cut_queues_ne (r : RunQueues) {h k : Nat} (prev cur : Int) (hk : k ≠ h) :
    (cut r h prev cur).queues k = r.queues k := by
  unfold cut RunQueues.unlink
  dsimp only
  split <;> simp [hk]

theorem cut_queue (r : RunQueues) (h : Nat) (prev cur : Int) :
    (cut r h prev cur).queues h =
      { head := if prev < 0 then r.rqNext cur else (r.queues h).head
        tail := if (r.queues h).tail = cur then prev else (r.queues h).tail
        len := (r.queues h).len - 1 } := by
  unfold cut RunQueues.unlink
  dsimp only
  split <;> simp

theorem cut_rqNext (r : RunQueues) (h : Nat) (prev cur u : Int) :
    (cut r h prev cur).rqNext u =
      if u = cur then -1
      else if ¬ prev < 0 ∧ u = prev then r.rqNext cur
      else r.rqNext u := by
  unfold cut RunQueues.unlink
  dsimp only
  split <;> simp [*]

theorem getLastD_append_ne_nil {α : Type} {xs ys : List α} {a : α} (h : ys ≠ []) :
    (xs ++ ys).getLastD a = ys.getLastD a := by
  obtain ⟨zs, z, rfl⟩ := List.eq_nil_or_concat ys |>.resolve_left h
  rw [List.concat_eq_append, ← List.append_assoc]
  simp

/-- Cutting a node out behind its predecessor leaves the rest of the list. -/
theorem cut_repr (hr : RqRepr cfg r q) {h : Nat} {t : Int} {pre post : List Int}
    (hh : h < cfg.maxHarts) (hq : q h = pre ++ t :: post) :
    RqRepr cfg (cut r h (pre.getLastD (-1)) t) (setQueue q h (pre ++ post)) := by
  have hseg := hr.seg h hh
  have htail := hr.tail h hh
  have hlen := hr.len h hh
  have hnd := hr.nodup h hh
  have hrange := hr.range h hh
  rw [hq] at hseg htail hlen hnd hrange
  have htnot : t ∉ pre ++ post := (List.nodup_cons.mp (List.nodup_middle.mp hnd)).1
  simp only [List.mem_append, not_or] at htnot
  obtain ⟨a, hpre, hat, hpost⟩ := segment_append.mp hseg
  have ht := hrange t (by simp)
  apply hr.remove_of hh hq
  · -- the links: at the head of the list the queue itself is redirected, behind `l` its link
    rcases List.eq_nil_or_concat pre with hp | ⟨xs, l, hp⟩
    · subst hp
      simp only [List.getLastD_nil, List.nil_append, cut_queue]
      rw [if_pos (by decide)]
      apply hpost.congr
      intro x hx
      have hxt : x ≠ t := fun heq => htnot.2 (heq ▸ hx)
      rw [cut_rqNext, if_neg hxt, if_neg (by simp)]
    · rw [List.concat_eq_append] at hp
      subst hp
      have hl := (hrange l (by simp)).1
      have hl0 : ¬ l < 0 := by omega
      simp only [List.getLastD_concat, cut_queue, if_neg hl0]
      refine segment_append.mpr ⟨r.rqNext t, ?_, ?_⟩
      · have hlxs : l ∉ xs := by
          intro hm
          rw [List.append_assoc] at hnd
          exact (List.nodup_append.mp hnd).2.2 l hm l (by simp) rfl
        refine (hpre.redirect hlxs).congr ?_
        intro x hx
        have hxt : x ≠ t := fun heq => htnot.1 (heq ▸ hx)
        rw [cut_rqNext, if_neg hxt]
        simp [hl0]
      · apply hpost.congr
        intro x hx
        have hxt : x ≠ t := fun heq => htnot.2 (heq ▸ hx)
        have hxl : x ≠ l := by
          intro heq
          subst heq
          exact (List.nodup_append.mp hnd).2.2 x (by simp) x (by simp [hx]) rfl
        rw [cut_rqNext, if_neg hxt, if_neg (by simp [hxl])]
  · -- the tail moves back to the predecessor just when the node was the last one
    simp only [cut_queue, htail]
    by_cases hp : post = []
    · subst hp
      simp
    · have hcons : (pre ++ t :: post).getLastD (-1) = post.getLastD (-1) := by
        rw [show pre ++ t :: post = (pre ++ [t]) ++ post by simp, getLastD_append_ne_nil hp]
      have hne : post.getLastD (-1) ≠ t := by
        intro heq
        obtain ⟨zs, z, hz⟩ := List.eq_nil_or_concat post |>.resolve_left hp
        subst hz
        simp only [List.concat_eq_append, List.getLastD_concat] at heq
        exact htnot.2 (by simp [heq])
      rw [hcons, if_neg hne, getLastD_append_ne_nil hp]
  · simp only [cut_queue, hlen, List.length_append, List.length_cons]
    omega
  · exact fun k hk => cut_queues_ne r _ _ hk
  · -- the two links that are written belong to nodes of this queue
    intro u hu
    have hut : u ≠ t := fun heq => hu (by rw [hq]; simp [heq])
    rw [cut_rqNext, if_neg hut, if_neg]
    rintro ⟨hneg, hul⟩
    rcases List.eq_nil_or_concat pre with hp | ⟨xs, l, hp⟩
    · simp [hp] at hneg
    · apply hu
      rw [hq, hul, hp]
      simp
  · exact fun u => cut_onRq r h _ _ u

/-! ## Pop -/

theorem rqPopHead_nil (hr : RqRepr cfg r q) {h : Nat} (hh : h < cfg.maxHarts) (hq : q h = []) :
    rqPopHead cfg r h = (-1, r) := by
  have hs := hr.seg h hh
  rw [hq, segment_nil] at hs
  simp [rqPopHead, hs]

/-- `rq_pop_head` removes and returns the first element. -/
theorem rqPopHead_cons (hr : RqRepr cfg r q) {h : Nat} {t : Int} {ts : List Int}
    (hh : h < cfg.maxHarts) (hq : q h = t :: ts) :
    ∃ r', rqPopHead cfg r h = (t, r') ∧ RqRepr cfg r' (setQueue q h ts) ∧
      ∀ u, r'.onRq u = if u = t then false else r.onRq u := by
  have hseg := hr.seg h hh
  have htail := hr.tail h hh
  have hlen := hr.len h hh
  have hrange := hr.range h hh
  have hnd := hr.nodup h hh
  rw [hq] at hseg htail hlen hrange hnd
  have ht := hrange t List.mem_cons_self
  have htnot : t ∉ ts := (List.nodup_cons.mp hnd).1
  have ha : ¬ cfg.maxHarts ≤ h := by omega
  have ht0 : ¬ t < 0 := by omega
  simp only [rqPopHead, if_neg ha, hseg.1, if_neg ht0]
  refine ⟨_, rfl, ?_, ?_⟩
  · apply @RqRepr.remove_of cfg r q hr h t [] ts hh hq
    · simp only [RunQueues.unlink, RunQueues.setNext_queues, RunQueues.setOnRq_queues,
        RunQueues.modQueue_queues, if_true, List.nil_append]
      exact hseg.2.frame htnot
    · simp only [RunQueues.unlink, RunQueues.setNext_queues, RunQueues.setOnRq_queues,
        RunQueues.modQueue_queues, if_true, List.nil_append, htail]
      -- with the last node out the tail goes back to -1
      cases ts with
      | nil =>
        have hn : r.rqNext t = -1 := hseg.2
        simp [hn]
      | cons u us =>
        have hu := hrange u (by simp)
        have hn : r.rqNext t = u := hseg.2.1
        have hu0 : ¬ u < 0 := by omega
        simp [hn, hu0]
    · simp [RunQueues.unlink, hlen]
    · intro k hk
      simp [RunQueues.unlink, hk]
    · intro u hu
      have hut : u ≠ t := fun heq => hu (by rw [hq]; simp [heq])
      simp [RunQueues.unlink, hut]
    · intro u
      simp [RunQueues.unlink]
  · intro u
    simp [RunQueues.unlink]

/-! ## Remove -/

/-- The walk finds `t` behind the nodes `mid`. -/
theorem rqRemoveLoop_found {h : Nat} {t : Int} {r : RunQueues} {mid post : List Int}
    {fuel : Nat} {prev cur : Int} (hseg : Segment r.rqNext cur (mid ++ t :: post) (-1))
    (hmid : t ∉ mid) (hpos : ∀ x ∈ mid, 0 ≤ x) (ht : 0 ≤ t) (hfuel : mid.length < fuel) :
    rqRemoveLoop h t fuel r prev cur = .ok (0, cut r h (mid.getLastD prev) t) := by
  induction mid generalizing fuel prev cur with
  | nil =>
    obtain ⟨fuel, rfl⟩ := Nat.exists_eq_succ_of_ne_zero (by omega : fuel ≠ 0)
    obtain ⟨rfl, _⟩ := hseg
    have ht0 : ¬ cur < 0 := by omega
    simp only [rqRemoveLoop, if_neg ht0, if_true, List.getLastD_nil]
    rfl
  | cons x xs ih =>
    obtain ⟨fuel, rfl⟩ := Nat.exists_eq_succ_of_ne_zero (by omega : fuel ≠ 0)
    obtain ⟨rfl, hrest⟩ := hseg
    simp only [List.mem_cons, not_or] at hmid
    have hx0 : ¬ cur < 0 := by have := hpos cur List.mem_cons_self; omega
    simp only [rqRemoveLoop, if_neg hx0, if_neg (Ne.symm hmid.1)]
    rw [ih hrest hmid.2 (fun y hy => hpos y (List.mem_cons_of_mem _ hy))
      (by simp only [List.length_cons] at hfuel; omega), List.getLastD_cons]

theorem rqRemoveLoop_absent {h : Nat} {t : Int} {r : RunQueues} {xs : List Int} {fuel : Nat}
    {prev cur : Int} (hseg : Segment r.rqNext cur xs (-1)) (hxs : t ∉ xs)
    (hpos : ∀ x ∈ xs, 0 ≤ x) (hfuel : xs.length < fuel) :
    rqRemoveLoop h t fuel r prev cur = .ok (-1, r) := by
  induction xs generalizing fuel prev cur with
  | nil =>
    obtain ⟨fuel, rfl⟩ := Nat.exists_eq_succ_of_ne_zero (by omega : fuel ≠ 0)
    rw [segment_nil] at hseg
    simp [rqRemoveLoop, hseg]
  | cons x xs ih =>
    obtain ⟨fuel, rfl⟩ := Nat.exists_eq_succ_of_ne_zero (by omega : fuel ≠ 0)
    obtain ⟨rfl, hrest⟩ := hseg
    simp only [List.mem_cons, not_or] at hxs
    have hx0 : ¬ cur < 0 := by have := hpos cur List.mem_cons_self; omega
    simp only [rqRemoveLoop, if_neg hx0, if_neg (Ne.symm hxs.1)]
    exact ih hrest hxs.2 (fun y hy => hpos y (List.mem_cons_of_mem _ hy))
      (by simp only [List.length_cons] at hfuel; omega)

/-- A queue holds at most one node per thread slot, so the walks have fuel to spare. -/
theorem RqRepr.length_le (hr : RqRepr cfg r q) {h : Nat} (hh : h < cfg.maxHarts) :
    (q h).length ≤ cfg.threadMax := by
  have hsub : (q h).toFinset ⊆ Finset.Ico (0 : Int) cfg.threadMax := by
    intro t ht
    have := hr.range h hh t (List.mem_toFinset.mp ht)
    exact Finset.mem_Ico.mpr (by omega)
  have hcard := Finset.card_le_card hsub
  rw [List.toFinset_card_of_nodup (hr.nodup h hh), Int.card_Ico] at hcard
  omega

/-- `rq_remove` erases a queued tid and returns 0. -/
theorem rqRemove_mem (hr : RqRepr cfg r q) {h : Nat} {t : Int} (hh : h < cfg.maxHarts)
    (ht : t ∈ q h) :
    ∃ r', rqRemove cfg r h t = .ok (0, r') ∧ RqRepr cfg r' (setQueue q h ((q h).erase t)) ∧
      ∀ u, r'.onRq u = if u = t then false else r.onRq u := by
  obtain ⟨pre, post, hq, hpre⟩ := List.append_of_mem ht |>.imp fun pre ⟨post, hq⟩ => by
    have hnd := hr.nodup h hh
    rw [hq] at hnd
    have := (List.nodup_cons.mp (List.nodup_middle.mp hnd)).1
    exact (⟨post, hq, fun hm => this (List.mem_append_left post hm)⟩ :
      ∃ post, q h = pre ++ t :: post ∧ t ∉ pre)
  have hrange := hr.range h hh
  have hrt := hrange t ht
  have hlen := hr.length_le hh
  have ha : ¬ cfg.maxHarts ≤ h := by omega
  have hb : ¬ (t < 0 ∨ (cfg.threadMax : Int) ≤ t) := by omega
  have hseg := hr.seg h hh
  rw [hq] at hseg hlen hrange
  simp only [rqRemove, if_neg ha, if_neg hb]
  rw [rqRemoveLoop_found hseg hpre (fun x hx => by have := hrange x (by simp [hx]); omega)
    (by omega) (by simp only [List.length_append, List.length_cons] at hlen; omega)]
  refine ⟨_, rfl, ?_, cut_onRq r h _ t⟩
  have herase : (q h).erase t = pre ++ post := by
    rw [hq, List.erase_append_right _ hpre]
    simp
  rw [herase]
  exact cut_repr hr hh hq

theorem rqRemove_not_mem (hr : RqRepr cfg r q) {h : Nat} {t : Int} (hh : h < cfg.maxHarts)
    (ht : t ∉ q h) : rqRemove cfg r h t = .ok (-1, r) := by
  have hrange := hr.range h hh
  have hlen := hr.length_le hh
  have ha : ¬ cfg.maxHarts ≤ h := by omega
  simp only [rqRemove, if_neg ha]
  split
  · rfl
  · exact rqRemoveLoop_absent (hr.seg h hh) ht (fun x hx => by have := hrange x hx; omega)
      (by omega)

theorem rqRemoveAnyLoop_spec (hr : RqRepr cfg r q) {t : Int} {h : Nat} (hh : h < cfg.maxHarts)
    (ht : t ∈ q h) {n k : Nat} (hk : k ≤ h) (hn : h < k + n) :
    ∃ r', rqRemoveAnyLoop cfg t n k r = .ok (h, r') ∧
      RqRepr cfg r' (setQueue q h ((q h).erase t)) ∧
      ∀ u, r'.onRq u = if u = t then false else r.onRq u := by
  induction n generalizing k with
  | zero => omega
  | succ n ih =>
    by_cases hkh : k = h
    · subst hkh
      obtain ⟨r', hrem, hrepr, hon⟩ := rqRemove_mem hr hh ht
      exact ⟨r', by simp [rqRemoveAnyLoop, hrem], hrepr, hon⟩
    · have hnot : t ∉ q k := fun hm => hkh (hr.disjoint k h (by omega) hh t hm ht)
      have hrem := rqRemove_not_mem hr (by omega : k < cfg.maxHarts) hnot
      obtain ⟨r', hloop, hrest⟩ := ih (k := k + 1) (by omega) (by omega)
      exact ⟨r', by simp [rqRemoveAnyLoop, hrem, hloop], hrest⟩

/-- `rq_remove_any` finds the one hart whose queue holds `t`. -/
theorem rqRemoveAny_spec (hr : RqRepr cfg r q) {t : Int} {h : Nat} (hh : h < cfg.maxHarts)
    (ht : t ∈ q h) :
    ∃ r', rqRemoveAny cfg r t = .ok (h, r') ∧ RqRepr cfg r' (setQueue q h ((q h).erase t)) ∧
      ∀ u, r'.onRq u = if u = t then false else r.onRq u := by
  have hrt := hr.range h hh t ht
  have hb : ¬ (t < 0 ∨ (cfg.threadMax : Int) ≤ t) := by omega
  simp only [rqRemoveAny, if_neg hb]
  exact rqRemoveAnyLoop_spec hr hh ht (by omega) (by omega)

end Remove

end Ccos
