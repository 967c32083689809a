import Mathlib.Data.List.Perm.Basic
import Mathlib.Data.List.Nodup

namespace PoolStat

def MAX_POOL : Nat := 8

variable {α : Type}

def ctor (self : α) : List (Option α) → Option (List (Option α))
  | [] => none
  | none :: rest => some (some self :: rest)
  | some p :: rest => (ctor self rest).map (some p :: ·)

theorem ctor_spec (self : α) {t : List (Option α)} (h : none ∈ t) :
    ∃ i, t[i]? = some none ∧ ctor self t = some (t.set i (some self)) := by
  induction t with
  | nil => cases h
  | cons e rest ih =>
    cases e with
    | none => exact ⟨0, by simp, rfl⟩
    | some p =>
      obtain ⟨i, hi, h⟩ := ih (by simpa using h)
      exact ⟨i + 1, by simpa using hi, by simp [ctor, h]⟩

theorem ctor_filterMap {self : α} {t t' : List (Option α)} (h : ctor self t = some t') :
    (t'.filterMap id).Perm (self :: t.filterMap id) := by
  induction t generalizing t' with
  | nil => cases h
  | cons e rest ih =>
    cases e with
    | none => cases h; rfl
    | some p =>
      obtain ⟨r, hr, rfl⟩ := Option.map_eq_some'.1 h
      exact ((ih hr).cons p).trans (List.Perm.swap self p _)

def getPoolStat : List (Option α) := List.replicate MAX_POOL none

structure Tracks (t : List (Option α)) (live : List α) : Prop where
  length_eq : t.length = MAX_POOL
  perm : (t.filterMap id).Perm live
  nodup : live.Nodup

theorem tracks_getPoolStat : Tracks (getPoolStat (α := α)) [] :=
  ⟨List.length_replicate _ _, by simp [getPoolStat], List.nodup_nil⟩

variable [DecidableEq α]

def dtor (self : α) : List (Option α) → Option (List (Option α))
  | [] => none
  | e :: rest => if e = some self then some (none :: rest) else (dtor self rest).map (e :: ·)

theorem dtor_spec (self : α) {t : List (Option α)} (h : some self ∈ t) :
    ∃ i, t[i]? = some (some self) ∧ dtor self t = some (t.set i none) := by
  induction t with
  | nil => cases h
  | cons e rest ih =>
    by_cases he : e = some self
    · exact ⟨0, by simp [he], by simp [dtor, he]⟩
    · obtain ⟨i, hi, h⟩ := ih (by simpa [Ne.symm he] using h)
      exact ⟨i + 1, by simpa using hi, by simp [dtor, he, h]⟩

theorem dtor_filterMap {self : α} {t t' : List (Option α)} (h : dtor self t = some t') :
    t'.filterMap id = (t.filterMap id).erase self := by
  induction t generalizing t' with
  | nil => cases h
  | cons e rest ih =>
    by_cases he : e = some self
    · subst he; simp only [dtor, if_true, Option.some.injEq] at h; subst h; simp
    · simp only [dtor, if_neg he] at h
      obtain ⟨r, hr, rfl⟩ := Option.map_eq_some'.1 h
      cases e with
      | none => simpa using ih hr
      | some p =>
        have hp : p ≠ self := fun hp => he (hp ▸ rfl)
        simp [ih hr, List.erase_cons, hp]

inductive Event (α : Type) where
  | construct (p : α)
  | destruct (p : α)
  deriving DecidableEq, Repr

def step (t : List (Option α)) : Event α → Option (List (Option α))
  | .construct p => ctor p t
  | .destruct p => dtor p t

def run (es : List (Event α)) : Option (List (Option α)) := es.foldlM step getPoolStat

def liveAfter : List α → List (Event α) → List α
  | live, [] => live
  | live, .construct p :: es => liveAfter (p :: live) es
  | live, .destruct p :: es => liveAfter (live.erase p) es

def allowed : List α → List (Event α) → Bool
  | _, [] => true
  | live, .construct p :: es => !live.contains p && live.length < MAX_POOL && allowed (p :: live) es
  | live, .destruct p :: es => live.contains p && allowed (live.erase p) es

def Allowed (es : List (Event α)) : Prop := allowed [] es = true

instance : DecidablePred (Allowed (α := α)) := fun _ => inferInstanceAs (Decidable (_ = true))

theorem Tracks.ctor {t : List (Option α)} {live : List α} (ht : Tracks t live) {p : α}
    (hp : p ∉ live) (hlen : live.length < MAX_POOL) :
    ∃ i, t[i]? = some none ∧ ctor p t = some (t.set i (some p)) ∧
      Tracks (t.set i (some p)) (p :: live) := by
  have hnone : none ∈ t := by
    by_contra hn
    have : (t.filterMap id).length = t.length := by
      rw [List.length_filterMap_eq_countP]
      exact List.countP_eq_length.2 fun e he => by cases e <;> simp_all
    rw [ht.perm.length_eq, ht.length_eq] at this
    omega
  obtain ⟨i, hi, hc⟩ := ctor_spec p hnone
  exact ⟨i, hi, hc, ⟨by rw [List.length_set, ht.length_eq],
    (ctor_filterMap hc).trans (ht.perm.cons p), List.nodup_cons.2 ⟨hp, ht.nodup⟩⟩⟩

theorem Tracks.dtor {t : List (Option α)} {live : List α} (ht : Tracks t live) {p : α}
    (hp : p ∈ live) :
    ∃ i, t[i]? = some (some p) ∧ dtor p t = some (t.set i none) ∧
      Tracks (t.set i none) (live.erase p) := by
  have hmem : some p ∈ t := by
    simpa using ht.perm.symm.subset hp
  obtain ⟨i, hi, hd⟩ := dtor_spec p hmem
  exact ⟨i, hi, hd, ⟨by rw [List.length_set, ht.length_eq],
    by rw [dtor_filterMap hd]; exact ht.perm.erase p, ht.nodup.erase p⟩⟩

theorem Tracks.run_from {t : List (Option α)} {live : List α} (ht : Tracks t live)
    (es : List (Event α)) (h : allowed live es = true) :
    ∃ t', es.foldlM step t = some t' ∧ Tracks t' (liveAfter live es) := by
  induction es generalizing t live with
  | nil => exact ⟨t, rfl, ht⟩
  | cons e es ih =>
    cases e with
    | construct p =>
      simp only [allowed, List.elem_eq_mem, Bool.and_eq_true, Bool.not_eq_eq_eq_not, Bool.not_true,
        decide_eq_false_iff_not, decide_eq_true_eq] at h
      obtain ⟨i, -, hc, ht'⟩ := ht.ctor h.1.1 h.1.2
      obtain ⟨t', hrun, ht''⟩ := ih ht' h.2
      exact ⟨t', by simp [step, hc, hrun], ht''⟩
    | destruct p =>
      simp only [allowed, List.elem_eq_mem, Bool.and_eq_true, decide_eq_true_eq] at h
      obtain ⟨i, -, hd, ht'⟩ := ht.dtor h.1
      obtain ⟨t', hrun, ht''⟩ := ih ht' h.2
      exact ⟨t', by simp [step, hd, hrun], ht''⟩

theorem pool_stat_tracks_live (es : List (Event α)) (h : Allowed es) :
    ∃ t, run es = some t ∧ (t.filterMap id).Perm (liveAfter [] es) ∧ (t.filterMap id).Nodup ∧
      (∀ p, p ∉ liveAfter [] es → (liveAfter [] es).length < MAX_POOL →
        ∃ i, t[i]? = some none ∧ ctor p t = some (t.set i (some p))) ∧
      (∀ p ∈ liveAfter [] es, ∃ i, t[i]? = some (some p) ∧ dtor p t = some (t.set i none)) := by
  obtain ⟨t, hrun, ht⟩ := tracks_getPoolStat.run_from es h
  refine ⟨t, hrun, ht.perm, ht.perm.nodup_iff.2 ht.nodup, fun p hp hlen => ?_, fun p hp => ?_⟩
  · obtain ⟨i, hi, hc, -⟩ := ht.ctor hp hlen
    exact ⟨i, hi, hc⟩
  · obtain ⟨i, hi, hd, -⟩ := ht.dtor hp
    exact ⟨i, hi, hd⟩

theorem pool_stat_tracks_live_sample :
    Allowed [.construct 1, .construct 2, .construct 3, .destruct 2, .construct 4, .destruct 1] ∧
      ∃ t, run [.construct 1, .construct 2, .construct 3, .destruct 2, .construct 4, .destruct 1] =
          some t ∧
        (t.filterMap id).Perm
          (liveAfter [] [.construct 1, .construct 2, .construct 3, .destruct 2, .construct 4,
            .destruct 1]) ∧ (t.filterMap id).Nodup ∧
        (∀ p, p ∉ liveAfter [] [.construct 1, .construct 2, .construct 3, .destruct 2, .construct 4,
            .destruct 1] → (liveAfter [] [.construct 1, .construct 2, .construct 3, .destruct 2,
            .construct 4, .destruct 1]).length < MAX_POOL →
          ∃ i, t[i]? = some none ∧ ctor p t = some (t.set i (some p))) ∧
        (∀ p ∈ liveAfter [] [.construct 1, .construct 2, .construct 3, .destruct 2, .construct 4,
            .destruct 1], ∃ i, t[i]? = some (some p) ∧ dtor p t = some (t.set i none)) :=
  ⟨by decide, pool_stat_tracks_live (α := Nat) _ (by decide)⟩

end PoolStat
