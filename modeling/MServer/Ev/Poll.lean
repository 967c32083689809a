import Mathlib.Data.List.Nodup
import Mathlib.Logic.Function.Basic

namespace EvPoll

def POLLIN : Nat := 0x001
def POLLOUT : Nat := 0x004
def POLLERR : Nat := 0x008
def POLLHUP : Nat := 0x010
def POLLNVAL : Nat := 0x020

structure PollFd where
  fd : Nat
  events : Nat
  revents : Nat
  deriving DecidableEq, Repr

structure EVBackend where
  fdIndex : List Int
  pollFd : List PollFd
  deriving DecidableEq, Repr

def slot (fdIndex : List Int) (fd : Nat) : Int := fdIndex[fd]?.getD (-1)

theorem slot_set_self {l : List Int} {fd : Nat} (v : Int) (h : fd < l.length) :
    slot (l.set fd v) fd = v := by
  simp [slot, List.getElem?_set_self h]

theorem slot_set_ne {l : List Int} {fd x : Nat} (v : Int) (h : x ≠ fd) :
    slot (l.set fd v) x = slot l x := by
  simp [slot, List.getElem?_set_ne (Ne.symm h)]

theorem lt_of_slot_ne {l : List Int} {x : Nat} (h : slot l x ≠ -1) : x < l.length := by
  by_contra hx
  exact h (by simp [slot, List.getElem?_eq_none (Nat.le_of_not_lt hx)])

namespace EVBackend

def init : EVBackend := ⟨List.replicate 1024 (-1), []⟩

variable (EV_READ EV_WRITE : Nat)

def pollEvents (ev : Nat) : Nat :=
  (if ev &&& EV_READ ≠ 0 then POLLIN else 0) ||| (if ev &&& EV_WRITE ≠ 0 then POLLOUT else 0)

def growIndex (fdIndex : List Int) (fd : Nat) : List Int :=
  if fdIndex.length < fd + 1 then fdIndex ++ List.replicate (fd + 1 - fdIndex.length) (-1)
  else fdIndex

def attach (s : EVBackend) (fd : Nat) : EVBackend × Nat :=
  if slot s.fdIndex fd < 0 then
    (⟨s.fdIndex.set fd s.pollFd.length, s.pollFd ++ [⟨fd, 0, 0⟩]⟩, s.pollFd.length)
  else (s, (slot s.fdIndex fd).toNat)

def detach (s : EVBackend) (fd index : Nat) : EVBackend :=
  let fdIndex := s.fdIndex.set fd (-1)
  let fdCount := s.pollFd.length - 1
  if index < fdCount then
    let moved := s.pollFd.getD fdCount ⟨0, 0, 0⟩
    ⟨fdIndex.set moved.fd index, (s.pollFd.set index moved).dropLast⟩
  else ⟨fdIndex, s.pollFd.dropLast⟩

def modify (s : EVBackend) (fd oldEv newEv : Nat) : Option EVBackend :=
  if oldEv = newEv then some s else
  let (s, index) := attach ⟨growIndex s.fdIndex fd, s.pollFd⟩ fd
  match s.pollFd[index]? with
  | some e =>
    if e.fd = fd then
      if newEv ≠ 0 then
        some ⟨s.fdIndex, s.pollFd.set index { e with events := pollEvents EV_READ EV_WRITE newEv }⟩
      else some (detach s fd index)
    else none
  | none => none

theorem slot_growIndex (l : List Int) (fd x : Nat) : slot (growIndex l fd) x = slot l x := by
  unfold slot growIndex
  split
  · rcases Nat.lt_or_ge x l.length with h | h
    · rw [List.getElem?_append_left h]
    · rw [List.getElem?_append_right h, List.getElem?_eq_none h, List.getElem?_replicate]
      split <;> rfl
  · rfl

theorem lt_length_growIndex (l : List Int) (fd : Nat) : fd < (growIndex l fd).length := by
  unfold growIndex
  split
  · simp only [List.length_append, List.length_replicate]; omega
  · omega

structure Represents (M : Nat → Nat) (s : EVBackend) : Prop where
  slot_some : ∀ fd, slot s.fdIndex fd = -1 ∨
    ∃ i : Nat, slot s.fdIndex fd = i ∧ (s.pollFd[i]?).map PollFd.fd = some fd
  slot_entry : ∀ (i : Nat) e, s.pollFd[i]? = some e → slot s.fdIndex e.fd = i
  slot_unset : ∀ fd, slot s.fdIndex fd = -1 ↔ M fd = 0
  entry_events : ∀ (i : Nat) e, s.pollFd[i]? = some e →
    e.events = pollEvents EV_READ EV_WRITE (M e.fd)

section Steps
variable {EV_READ EV_WRITE} {M : Nat → Nat} {s : EVBackend}

theorem getElem?_push {p : List PollFd} {a e : PollFd} {i : Nat} (h : (p ++ [a])[i]? = some e) :
    p[i]? = some e ∨ i = p.length ∧ e = a := by
  rw [List.getElem?_append] at h
  split at h
  · exact .inl h
  · rcases Nat.lt_or_ge i (p.length + 1) with hi | hi
    · have : i - p.length = 0 := by omega
      simp only [this, List.getElem?_cons_zero, Option.some.injEq] at h
      exact .inr ⟨by omega, h.symm⟩
    · simp [List.getElem?_eq_none (by simp; omega : [a].length ≤ i - p.length)] at h

theorem lt_length_of_map_fd {p : List PollFd} {j x : Nat} (hp : (p[j]?).map PollFd.fd = some x) :
    j < p.length := by
  obtain ⟨e, he, -⟩ := Option.map_eq_some'.1 hp
  exact (List.getElem?_eq_some_iff.1 he).1

theorem index_ne_of_fd_ne {p : List PollFd} {i j x : Nat} {e : PollFd} (he : p[i]? = some e)
    (hp : (p[j]?).map PollFd.fd = some x) (hx : x ≠ e.fd) : j ≠ i := by
  rintro rfl
  simp only [he, Option.map_some', Option.some.injEq] at hp
  exact hx hp.symm

theorem Represents.fd_ne (hs : Represents EV_READ EV_WRITE M s) {fd i : Nat} {e : PollFd}
    (he : s.pollFd[i]? = some e) (hfd : slot s.fdIndex fd ≠ i) : e.fd ≠ fd := by
  rintro rfl
  exact hfd (hs.slot_entry i e he)

theorem Represents.insert (hs : Represents EV_READ EV_WRITE M s) {fd v : Nat}
    (hfd : fd < s.fdIndex.length) (hM : M fd = 0) (hv : v ≠ 0) :
    Represents EV_READ EV_WRITE (Function.update M fd v)
      ⟨s.fdIndex.set fd s.pollFd.length, s.pollFd ++ [⟨fd, pollEvents EV_READ EV_WRITE v, 0⟩]⟩ := by
  have hslot : slot s.fdIndex fd = -1 := (hs.slot_unset fd).2 hM
  constructor
  · intro x
    by_cases hx : x = fd
    · subst hx
      exact .inr ⟨s.pollFd.length, slot_set_self _ hfd, by simp [List.getElem?_concat_length]⟩
    · rw [slot_set_ne _ hx]
      rcases hs.slot_some x with h | ⟨i, hi, hp⟩
      · exact .inl h
      · exact .inr ⟨i, hi, by rw [List.getElem?_append_left (lt_length_of_map_fd hp)]; exact hp⟩
  · intro i e he
    rcases getElem?_push he with he | ⟨rfl, rfl⟩
    · rw [slot_set_ne _ (hs.fd_ne he (by omega))]
      exact hs.slot_entry i e he
    · exact slot_set_self _ hfd
  · intro x
    by_cases hx : x = fd
    · subst hx
      simp [slot_set_self _ hfd, hv]
    · rw [slot_set_ne _ hx, Function.update_noteq hx]
      exact hs.slot_unset x
  · intro i e he
    rcases getElem?_push he with he | ⟨rfl, rfl⟩
    · rw [Function.update_noteq (hs.fd_ne he (by omega))]
      exact hs.entry_events i e he
    · simp

theorem Represents.setEvents (hs : Represents EV_READ EV_WRITE M s) {fd i v : Nat} {e : PollFd}
    (hi : slot s.fdIndex fd = i) (he : s.pollFd[i]? = some e) (hefd : e.fd = fd) (hv : v ≠ 0) :
    Represents EV_READ EV_WRITE (Function.update M fd v)
      ⟨s.fdIndex, s.pollFd.set i { e with events := pollEvents EV_READ EV_WRITE v }⟩ := by
  have hget : ∀ j, (s.pollFd.set i { e with events := pollEvents EV_READ EV_WRITE v })[j]? =
      if j = i then some { e with events := pollEvents EV_READ EV_WRITE v } else s.pollFd[j]? := by
    intro j
    rw [List.getElem?_set]
    by_cases hj : i = j
    · subst hj; simp [(List.getElem?_eq_some_iff.1 he).1]
    · simp [hj, Ne.symm hj]
  constructor
  · intro x
    rcases hs.slot_some x with h | ⟨j, hj, hp⟩
    · exact .inl h
    · refine .inr ⟨j, hj, ?_⟩
      rw [hget]
      split
      · subst_vars; simpa [he] using hp
      · exact hp
  · intro j e' h
    rw [hget] at h
    split at h
    · subst_vars; simp only [Option.some.injEq] at h; subst h; exact hi
    · exact hs.slot_entry j e' h
  · intro x
    by_cases hx : x = fd
    · subst hx; simp [hi, hv]
    · rw [Function.update_noteq hx]; exact hs.slot_unset x
  · intro j e' h
    rw [hget] at h
    split at h
    · simp only [Option.some.injEq] at h; subst h; rw [hefd, Function.update_same]
    · rw [Function.update_noteq (hs.fd_ne h (by omega))]; exact hs.entry_events j e' h

theorem getElem?_pop {p : List PollFd} {i j : Nat} {m e : PollFd} (hi : i < p.length - 1)
    (h : ((p.set i m).dropLast)[j]? = some e) :
    j < p.length - 1 ∧ (j = i ∧ e = m ∨ j ≠ i ∧ p[j]? = some e) := by
  rw [List.getElem?_dropLast, List.length_set] at h
  split at h
  · rw [List.getElem?_set] at h
    by_cases hj : i = j
    · subst hj; simp only [if_true, show i < p.length by omega] at h
      exact ⟨‹_›, .inl ⟨rfl, (Option.some.inj h).symm⟩⟩
    · rw [if_neg hj] at h; exact ⟨‹_›, .inr ⟨Ne.symm hj, h⟩⟩
  · cases h

theorem Represents.detach_swap (hs : Represents EV_READ EV_WRITE M s) {fd i : Nat} {e : PollFd}
    (hi : slot s.fdIndex fd = i) (he : s.pollFd[i]? = some e) (hefd : e.fd = fd)
    (hlt : i < s.pollFd.length - 1) :
    Represents EV_READ EV_WRITE (Function.update M fd 0)
      ⟨(s.fdIndex.set fd (-1)).set (s.pollFd.getD (s.pollFd.length - 1) ⟨0, 0, 0⟩).fd i,
        (s.pollFd.set i (s.pollFd.getD (s.pollFd.length - 1) ⟨0, 0, 0⟩)).dropLast⟩ := by
  have hfd : fd < s.fdIndex.length := lt_of_slot_ne (by omega)
  have hin : i < s.pollFd.length := (List.getElem?_eq_some_iff.1 he).1
  have hunset : slot (s.fdIndex.set fd (-1)) fd = -1 := slot_set_self _ hfd
  set m := s.pollFd.getD (s.pollFd.length - 1) ⟨0, 0, 0⟩
  have hm : s.pollFd[s.pollFd.length - 1]? = some m := by
    simp only [m, List.getD_eq_getElem?_getD]; rw [List.getElem?_eq_getElem (by omega)]; rfl
  have hmslot := hs.slot_entry _ _ hm
  have hmfd : m.fd ≠ fd := hs.fd_ne hm (by omega)
  have hmlen : m.fd < (s.fdIndex.set fd (-1)).length := by
    rw [List.length_set]; exact lt_of_slot_ne (by omega)
  have hslot : ∀ x, x ≠ m.fd → x ≠ fd → slot ((s.fdIndex.set fd (-1)).set m.fd i) x = slot s.fdIndex x := by
    intro x h1 h2; rw [slot_set_ne _ h1, slot_set_ne _ h2]
  constructor
  · intro x
    by_cases h1 : x = m.fd
    · subst h1
      refine .inr ⟨i, slot_set_self _ hmlen, ?_⟩
      rw [List.getElem?_dropLast, List.length_set, if_pos hlt, List.getElem?_set_self hin]; rfl
    by_cases h2 : x = fd
    · subst h2; exact .inl (by rw [slot_set_ne _ h1, hunset])
    rw [hslot x h1 h2]
    rcases hs.slot_some x with h | ⟨j, hj, hp⟩
    · exact .inl h
    · have hji := index_ne_of_fd_ne he hp (hefd ▸ h2)
      have hjn := index_ne_of_fd_ne hm hp h1
      have hjl := lt_length_of_map_fd hp
      refine .inr ⟨j, hj, ?_⟩
      rw [List.getElem?_dropLast, List.length_set, if_pos (by omega), List.getElem?_set_ne (Ne.symm hji)]
      exact hp
  · intro j e' h
    rcases getElem?_pop hlt h with ⟨hj, ⟨rfl, rfl⟩ | ⟨hji, hp⟩⟩
    · exact slot_set_self _ hmlen
    · rw [hslot _ (hs.fd_ne hp (by omega)) (hs.fd_ne hp (by omega))]
      exact hs.slot_entry j e' hp
  · intro x
    by_cases h1 : x = m.fd
    · subst h1
      rw [slot_set_self _ hmlen, Function.update_noteq hmfd, ← hs.slot_unset]
      omega
    by_cases h2 : x = fd
    · subst h2; simp [slot_set_ne _ h1, hunset]
    rw [hslot x h1 h2, Function.update_noteq h2]; exact hs.slot_unset x
  · intro j e' h
    rcases getElem?_pop hlt h with ⟨hj, ⟨rfl, rfl⟩ | ⟨hji, hp⟩⟩
    · rw [Function.update_noteq hmfd]; exact hs.entry_events _ _ hm
    · rw [Function.update_noteq (hs.fd_ne hp (by omega))]; exact hs.entry_events j e' hp

theorem Represents.detach_last (hs : Represents EV_READ EV_WRITE M s) {fd i : Nat} {e : PollFd}
    (hi : slot s.fdIndex fd = i) (he : s.pollFd[i]? = some e) (hefd : e.fd = fd)
    (hlast : ¬ i < s.pollFd.length - 1) :
    Represents EV_READ EV_WRITE (Function.update M fd 0) ⟨s.fdIndex.set fd (-1), s.pollFd.dropLast⟩ := by
  have hfd : fd < s.fdIndex.length := lt_of_slot_ne (by omega)
  have hin : i < s.pollFd.length := (List.getElem?_eq_some_iff.1 he).1
  have hunset : slot (s.fdIndex.set fd (-1)) fd = -1 := slot_set_self _ hfd
  have hget : ∀ {j e'}, (s.pollFd.dropLast)[j]? = some e' → j < i ∧ s.pollFd[j]? = some e' := by
    intro j e' h
    rw [List.getElem?_dropLast] at h
    split at h
    · exact ⟨by omega, h⟩
    · cases h
  constructor
  · intro x
    by_cases h2 : x = fd
    · subst h2; exact .inl hunset
    rw [slot_set_ne _ h2]
    rcases hs.slot_some x with h | ⟨j, hj, hp⟩
    · exact .inl h
    · have hji := index_ne_of_fd_ne he hp (hefd ▸ h2)
      have hjl := lt_length_of_map_fd hp
      refine .inr ⟨j, hj, ?_⟩
      rw [List.getElem?_dropLast, if_pos (by omega)]
      exact hp
  · intro j e' h
    obtain ⟨hj, hp⟩ := hget h
    rw [slot_set_ne _ (hs.fd_ne hp (by omega))]
    exact hs.slot_entry j e' hp
  · intro x
    by_cases h2 : x = fd
    · subst h2; simp [hunset]
    rw [slot_set_ne _ h2, Function.update_noteq h2]; exact hs.slot_unset x
  · intro j e' h
    obtain ⟨hj, hp⟩ := hget h
    rw [Function.update_noteq (hs.fd_ne hp (by omega))]; exact hs.entry_events j e' hp

theorem Represents.detach (hs : Represents EV_READ EV_WRITE M s) {fd i : Nat} {e : PollFd}
    (hi : slot s.fdIndex fd = i) (he : s.pollFd[i]? = some e) (hefd : e.fd = fd) :
    Represents EV_READ EV_WRITE (Function.update M fd 0) (detach s fd i) := by
  dsimp only [EVBackend.detach]
  split
  · exact hs.detach_swap hi he hefd ‹_›
  · exact hs.detach_last hi he hefd ‹_›

theorem attach_of_unset {s : EVBackend} {fd : Nat} (h : slot s.fdIndex fd = -1) :
    attach s fd = (⟨s.fdIndex.set fd s.pollFd.length, s.pollFd ++ [⟨fd, 0, 0⟩]⟩, s.pollFd.length) := by
  simp [attach, h]

theorem attach_of_slot {s : EVBackend} {fd i : Nat} (h : slot s.fdIndex fd = i) :
    attach s fd = (s, i) := by
  simp only [attach, h, if_neg (by omega : ¬ ((i : Int) < 0))]; rfl

theorem Represents.grow (hs : Represents EV_READ EV_WRITE M s) (fd : Nat) :
    Represents EV_READ EV_WRITE M ⟨growIndex s.fdIndex fd, s.pollFd⟩ := by
  obtain ⟨h1, h2, h3, h4⟩ := hs
  exact ⟨by simpa only [slot_growIndex] using h1, by simpa only [slot_growIndex] using h2,
    by simpa only [slot_growIndex] using h3, h4⟩

theorem Represents.modify (hs : Represents EV_READ EV_WRITE M s) (fd v : Nat) :
    ∃ s', modify EV_READ EV_WRITE s fd (M fd) v = some s' ∧
      Represents EV_READ EV_WRITE (Function.update M fd v) s' := by
  by_cases hv : M fd = v
  · subst hv; exact ⟨s, by simp [EVBackend.modify], by rwa [Function.update_eq_self]⟩
  have hs1 := hs.grow fd
  have hfd := lt_length_growIndex s.fdIndex fd
  set s1 : EVBackend := ⟨growIndex s.fdIndex fd, s.pollFd⟩
  by_cases hM : M fd = 0
  · have hslot : slot s1.fdIndex fd = -1 := (hs1.slot_unset fd).2 hM
    refine ⟨_, ?_, hs1.insert hfd hM (by omega)⟩
    simp [EVBackend.modify, hv, attach_of_unset hslot, List.getElem?_concat_length, s1, hM ▸ hv,
      Ne.symm (hM ▸ hv)]
  · obtain ⟨i, hi, hp⟩ := (hs1.slot_some fd).resolve_left (mt (hs1.slot_unset fd).1 hM)
    obtain ⟨e, he, hefd⟩ := Option.map_eq_some'.1 hp
    by_cases hv0 : v = 0
    · subst hv0
      exact ⟨_, by simp [EVBackend.modify, hv, attach_of_slot hi, he, hefd], hs1.detach hi he hefd⟩
    · exact ⟨_, by simp [EVBackend.modify, hv, attach_of_slot hi, he, hefd, hv0],
        hs1.setEvents hi he hefd hv0⟩

end Steps

theorem pollin_pollEvents (v : Nat) :
    POLLIN &&& pollEvents EV_READ EV_WRITE v ≠ 0 ↔ v &&& EV_READ ≠ 0 := by
  unfold pollEvents
  by_cases h1 : v &&& EV_READ = 0 <;> by_cases h2 : v &&& EV_WRITE = 0 <;>
    simp only [h1, h2, ne_eq, not_true, not_false_eq_true, if_true, if_false] <;> decide

theorem pollout_pollEvents (v : Nat) :
    POLLOUT &&& pollEvents EV_READ EV_WRITE v ≠ 0 ↔ v &&& EV_WRITE ≠ 0 := by
  unfold pollEvents
  by_cases h1 : v &&& EV_READ = 0 <;> by_cases h2 : v &&& EV_WRITE = 0 <;>
    simp only [h1, h2, ne_eq, not_true, not_false_eq_true, if_true, if_false] <;> decide

structure Table (M : Nat → Nat) (s : EVBackend) : Prop where
  entries : ∀ fd, (s.pollFd.map PollFd.fd).count fd = if M fd = 0 then 0 else 1
  index_iff : ∀ fd < s.fdIndex.length, ∀ i : Nat,
    s.fdIndex[fd]? = some (i : Int) ↔ (s.pollFd[i]?).map PollFd.fd = some fd
  unset_iff : ∀ fd < s.fdIndex.length, s.fdIndex[fd]? = some (-1) ↔ M fd = 0
  pollin_iff : ∀ e ∈ s.pollFd, POLLIN &&& e.events ≠ 0 ↔ M e.fd &&& EV_READ ≠ 0
  pollout_iff : ∀ e ∈ s.pollFd, POLLOUT &&& e.events ≠ 0 ↔ M e.fd &&& EV_WRITE ≠ 0

section Table
variable {EV_READ EV_WRITE} {M : Nat → Nat} {s : EVBackend}

theorem getElem?_fdIndex {l : List Int} {fd : Nat} (h : fd < l.length) : l[fd]? = some (slot l fd) := by
  simp [slot, List.getElem?_eq_getElem h]

theorem Represents.nodup (hs : Represents EV_READ EV_WRITE M s) : (s.pollFd.map PollFd.fd).Nodup := by
  rw [List.nodup_iff_getElem?_ne_getElem?]
  intro i j hij _ heq
  simp only [List.getElem?_map] at heq
  rcases hi : s.pollFd[i]? with _ | a
  · simp_all
  rcases hj : s.pollFd[j]? with _ | b
  · simp_all
  rw [hi, hj, Option.map_some', Option.map_some', Option.some.injEq] at heq
  have h1 := hs.slot_entry i a hi
  have h2 := hs.slot_entry j b hj
  rw [heq] at h1
  omega

theorem Represents.mem_iff (hs : Represents EV_READ EV_WRITE M s) (fd : Nat) :
    fd ∈ s.pollFd.map PollFd.fd ↔ M fd ≠ 0 := by
  rw [List.mem_map, ne_eq, ← hs.slot_unset]
  constructor
  · rintro ⟨e, he, rfl⟩
    obtain ⟨i, hi⟩ := List.mem_iff_getElem?.1 he
    rw [hs.slot_entry i e hi]; omega
  · intro h
    obtain ⟨i, -, hp⟩ := (hs.slot_some fd).resolve_left h
    obtain ⟨e, he, rfl⟩ := Option.map_eq_some'.1 hp
    exact ⟨e, List.mem_iff_getElem?.2 ⟨i, he⟩, rfl⟩

theorem Represents.table (hs : Represents EV_READ EV_WRITE M s) : Table EV_READ EV_WRITE M s where
  entries fd := by
    split
    · exact List.count_eq_zero_of_not_mem (by rw [hs.mem_iff]; simpa)
    · exact List.count_eq_one_of_mem hs.nodup ((hs.mem_iff fd).2 ‹_›)
  index_iff fd hfd i := by
    rw [getElem?_fdIndex hfd, Option.some.injEq]
    constructor
    · intro h
      rcases hs.slot_some fd with h' | ⟨j, hj, hp⟩
      · omega
      · obtain rfl : i = j := by omega
        exact hp
    · intro h
      obtain ⟨e, he, rfl⟩ := Option.map_eq_some'.1 h
      exact hs.slot_entry i e he
  unset_iff fd hfd := by rw [getElem?_fdIndex hfd, Option.some.injEq, hs.slot_unset]
  pollin_iff e he := by
    obtain ⟨i, hi⟩ := List.mem_iff_getElem?.1 he
    rw [hs.entry_events i e hi, pollin_pollEvents]
  pollout_iff e he := by
    obtain ⟨i, hi⟩ := List.mem_iff_getElem?.1 he
    rw [hs.entry_events i e hi, pollout_pollEvents]

theorem represents_init : Represents EV_READ EV_WRITE (fun _ => 0) init := by
  have h : ∀ x, slot init.fdIndex x = -1 := by
    intro x
    rw [slot, show init.fdIndex = List.replicate 1024 (-1) from rfl, List.getElem?_replicate]
    split <;> rfl
  have he : ∀ i : Nat, init.pollFd[i]? = none := fun _ => rfl
  refine ⟨fun x => .inl (h x), fun i e hi => ?_, fun x => by simp [h], fun i e hi => ?_⟩ <;>
    simp [he] at hi

end Table

structure Call where
  fd : Nat
  oldEv : Nat
  newEv : Nat
  deriving DecidableEq, Repr

def interestAfter (M : Nat → Nat) (calls : List Call) : Nat → Nat :=
  calls.foldl (fun M c => Function.update M c.fd c.newEv) M

def interest (calls : List Call) : Nat → Nat := interestAfter (fun _ => 0) calls

def lastMaskOk : (Nat → Nat) → List Call → Bool
  | _, [] => true
  | M, c :: cs => c.oldEv == M c.fd && lastMaskOk (Function.update M c.fd c.newEv) cs

def Disciplined (calls : List Call) : Prop := lastMaskOk (fun _ => 0) calls = true

instance : DecidablePred Disciplined := fun _ => inferInstanceAs (Decidable (_ = true))

def run (calls : List Call) : Option EVBackend :=
  calls.foldlM (fun s c => modify EV_READ EV_WRITE s c.fd c.oldEv c.newEv) init

section Run
variable {EV_READ EV_WRITE}

theorem Represents.run_from {M : Nat → Nat} {s : EVBackend} (hs : Represents EV_READ EV_WRITE M s)
    (calls : List Call) (h : lastMaskOk M calls = true) :
    ∃ s', calls.foldlM (fun s c => EVBackend.modify EV_READ EV_WRITE s c.fd c.oldEv c.newEv) s = some s' ∧
      Represents EV_READ EV_WRITE (interestAfter M calls) s' := by
  induction calls generalizing M s with
  | nil => exact ⟨s, rfl, hs⟩
  | cons c cs ih =>
    simp only [lastMaskOk, Bool.and_eq_true, beq_iff_eq] at h
    obtain ⟨s1, h1, hs1⟩ := hs.modify c.fd c.newEv
    obtain ⟨s', h', hs'⟩ := ih hs1 h.2
    exact ⟨s', by simp only [List.foldlM_cons, h.1, h1, Option.bind_eq_bind, Option.some_bind, h'], hs'⟩

end Run

theorem modify_calls_keep_tables (calls : List Call) (h : Disciplined calls) :
    ∃ s, run EV_READ EV_WRITE calls = some s ∧ Table EV_READ EV_WRITE (interest calls) s := by
  obtain ⟨s, hrun, hs⟩ := represents_init.run_from calls h
  exact ⟨s, hrun, hs.table⟩

theorem modify_calls_keep_tables_sample :
    Disciplined [⟨3, 0, 1⟩, ⟨2000, 0, 3⟩, ⟨3, 1, 0⟩, ⟨2000, 3, 2⟩] ∧
      ∃ s, run 1 2 [⟨3, 0, 1⟩, ⟨2000, 0, 3⟩, ⟨3, 1, 0⟩, ⟨2000, 3, 2⟩] = some s ∧
        Table 1 2 (interest [⟨3, 0, 1⟩, ⟨2000, 0, 3⟩, ⟨3, 1, 0⟩, ⟨2000, 3, 2⟩]) s :=
  ⟨by decide, modify_calls_keep_tables 1 2 _ (by decide)⟩

inductive WaitEnd where
  | done
  | aborted
  | overrun
deriving DecidableEq, Repr

inductive Errno where
  | eintr
  | enomem
  | other (n : Nat)
deriving DecidableEq, Repr

def evMask (revents : Nat) : Nat :=
  (if revents &&& (POLLOUT ||| POLLERR ||| POLLHUP) ≠ 0 then EV_WRITE else 0) |||
    (if revents &&& (POLLIN ||| POLLERR ||| POLLHUP) ≠ 0 then EV_READ else 0)

def dispatch : List PollFd → Nat → List (Nat × Nat) × WaitEnd
  | _, 0 => ([], .done)
  | [], _ + 1 => ([], .overrun)
  | p :: ps, n + 1 =>
    if p.revents = 0 then dispatch ps (n + 1)
    else if p.revents &&& POLLNVAL ≠ 0 then ([], .aborted)
    else (dispatch ps n).map ((p.fd, evMask EV_READ EV_WRITE p.revents) :: ·) id

def wait (s : EVBackend) (evCount : Int) (errno : Errno) : List (Nat × Nat) × WaitEnd :=
  if evCount < 0 then
    match errno with
    | .eintr => ([], .done)
    | .enomem => ([], .done)
    | .other _ => ([], .aborted)
  else dispatch EV_READ EV_WRITE s.pollFd evCount.toNat

def ready (ps : List PollFd) : List PollFd := ps.filter fun p => p.revents ≠ 0

section Wait
variable {EV_READ EV_WRITE}

theorem dispatch_skip {p : PollFd} (hp : p.revents = 0) (ps : List PollFd) (n : Nat) :
    dispatch EV_READ EV_WRITE (p :: ps) n = dispatch EV_READ EV_WRITE ps n := by
  cases n <;> simp [dispatch, hp]

theorem dispatch_ready (ps : List PollFd) (h : ∀ p ∈ ps, p.revents ≠ 0 → p.revents &&& POLLNVAL = 0) :
    dispatch EV_READ EV_WRITE ps (ready ps).length =
      ((ready ps).map fun p => (p.fd, evMask EV_READ EV_WRITE p.revents), .done) := by
  induction ps with
  | nil => rfl
  | cons p ps ih =>
    have ih := ih fun q hq => h q (List.mem_cons_of_mem _ hq)
    by_cases hp : p.revents = 0
    · have hf : ready (p :: ps) = ready ps := List.filter_cons_of_neg (by simp [hp])
      rw [hf, dispatch_skip hp, ih]
    · have hn := h p (List.mem_cons_self _ _) hp
      have hf : ready (p :: ps) = p :: ready ps := List.filter_cons_of_pos (by simp [hp])
      rw [hf, List.length_cons, List.map_cons, dispatch, if_neg hp, if_neg (by simp [hn]), ih]
      rfl

theorem dispatch_nval {p : PollFd} (hp : p.revents &&& POLLNVAL ≠ 0) (post : List PollFd) (n : Nat)
    (pre : List PollFd) (hpre : ∀ q ∈ pre, q.revents ≠ 0 → q.revents &&& POLLNVAL = 0) :
    dispatch EV_READ EV_WRITE (pre ++ p :: post) ((ready pre).length + n + 1) =
      ((ready pre).map fun q => (q.fd, evMask EV_READ EV_WRITE q.revents), .aborted) := by
  induction pre with
  | nil =>
    have h0 : p.revents ≠ 0 := fun h => hp (by rw [h]; rfl)
    simp [dispatch, ready, h0, hp]
  | cons q pre ih =>
    have ih := ih fun x hx => hpre x (List.mem_cons_of_mem _ hx)
    by_cases hq : q.revents = 0
    · have hf : ready (q :: pre) = ready pre := List.filter_cons_of_neg (by simp [hq])
      rw [List.cons_append, hf, dispatch_skip hq, ih]
    · have hn := hpre q (List.mem_cons_self _ _) hq
      have hf : ready (q :: pre) = q :: ready pre := List.filter_cons_of_pos (by simp [hq])
      rw [hf, List.length_cons, show (ready pre).length + 1 + n + 1 = (ready pre).length + n + 1 + 1 by omega,
        List.cons_append, dispatch, if_neg hq, if_neg (by simp [hn]), ih]
      rfl

theorem length_ready_nval {p : PollFd} (hp : p.revents &&& POLLNVAL ≠ 0) (pre post : List PollFd) :
    (ready (pre ++ p :: post)).length = (ready pre).length + (ready post).length + 1 := by
  have h0 : p.revents ≠ 0 := fun h => hp (by rw [h]; rfl)
  simp only [ready, List.filter_append, List.filter_cons_of_pos (p := fun q : PollFd => decide (q.revents ≠ 0))
    (by simpa using h0), List.length_append, List.length_cons]
  omega

theorem evMask_and (hrw : EV_READ &&& EV_WRITE = 0) (r : Nat) :
    evMask EV_READ EV_WRITE r &&& EV_READ =
        (if r &&& (POLLIN ||| POLLERR ||| POLLHUP) ≠ 0 then EV_READ else 0) ∧
      evMask EV_READ EV_WRITE r &&& EV_WRITE =
        (if r &&& (POLLOUT ||| POLLERR ||| POLLHUP) ≠ 0 then EV_WRITE else 0) := by
  have hwr : EV_WRITE &&& EV_READ = 0 := by rw [Nat.and_comm]; exact hrw
  unfold evMask
  constructor <;> rw [Nat.and_distrib_right] <;> split_ifs <;> simp [hrw, hwr]

end Wait

theorem wait_dispatches_ready (hr : EV_READ ≠ 0) (hw : EV_WRITE ≠ 0) (hrw : EV_READ &&& EV_WRITE = 0)
    (s : EVBackend) (errno : Errno) :
    ((∀ p ∈ s.pollFd, p.revents ≠ 0 → p.revents &&& POLLNVAL = 0) →
      wait EV_READ EV_WRITE s (ready s.pollFd).length errno =
        ((ready s.pollFd).map fun p => (p.fd, evMask EV_READ EV_WRITE p.revents), .done)) ∧
    (∀ pre p post, s.pollFd = pre ++ p :: post → (∀ q ∈ pre, q.revents ≠ 0 → q.revents &&& POLLNVAL = 0) →
      p.revents &&& POLLNVAL ≠ 0 →
      wait EV_READ EV_WRITE s (ready s.pollFd).length errno =
        ((ready pre).map fun q => (q.fd, evMask EV_READ EV_WRITE q.revents), .aborted)) ∧
    ∀ r, (evMask EV_READ EV_WRITE r &&& EV_READ ≠ 0 ↔ r &&& (POLLIN ||| POLLERR ||| POLLHUP) ≠ 0) ∧
      (evMask EV_READ EV_WRITE r &&& EV_WRITE ≠ 0 ↔ r &&& (POLLOUT ||| POLLERR ||| POLLHUP) ≠ 0) := by
  refine ⟨fun hnval => ?_, fun pre p post hs hpre hp => ?_, fun r => ?_⟩
  · rw [wait.eq_def, if_neg (by omega), Int.toNat_ofNat]
    exact dispatch_ready s.pollFd hnval
  · rw [wait.eq_def, if_neg (by omega), Int.toNat_ofNat, hs, length_ready_nval hp]
    exact dispatch_nval hp post _ pre hpre
  · obtain ⟨h1, h2⟩ := evMask_and hrw r
    rw [h1, h2]
    constructor <;> split_ifs <;> simp [*]

theorem wait_dispatches_ready_sample :
    (1 : Nat) ≠ 0 ∧ (2 : Nat) ≠ 0 ∧ (1 : Nat) &&& 2 = 0 ∧
      ((∀ p ∈ ([⟨3, 1, 0⟩, ⟨4, 5, POLLIN ||| POLLOUT⟩, ⟨6, 1, POLLNVAL⟩, ⟨5, 1, POLLHUP⟩] : List PollFd),
          p.revents ≠ 0 → p.revents &&& POLLNVAL = 0) →
        wait 1 2 ⟨[], [⟨3, 1, 0⟩, ⟨4, 5, POLLIN ||| POLLOUT⟩, ⟨6, 1, POLLNVAL⟩, ⟨5, 1, POLLHUP⟩]⟩
            (ready [⟨3, 1, 0⟩, ⟨4, 5, POLLIN ||| POLLOUT⟩, ⟨6, 1, POLLNVAL⟩, ⟨5, 1, POLLHUP⟩]).length Errno.eintr =
          ((ready [⟨3, 1, 0⟩, ⟨4, 5, POLLIN ||| POLLOUT⟩, ⟨6, 1, POLLNVAL⟩, ⟨5, 1, POLLHUP⟩]).map
            fun p => (p.fd, evMask 1 2 p.revents), .done)) ∧
      (∀ pre p post, ([⟨3, 1, 0⟩, ⟨4, 5, POLLIN ||| POLLOUT⟩, ⟨6, 1, POLLNVAL⟩, ⟨5, 1, POLLHUP⟩] : List PollFd) =
          pre ++ p :: post → (∀ q ∈ pre, q.revents ≠ 0 → q.revents &&& POLLNVAL = 0) →
          p.revents &&& POLLNVAL ≠ 0 →
          wait 1 2 ⟨[], [⟨3, 1, 0⟩, ⟨4, 5, POLLIN ||| POLLOUT⟩, ⟨6, 1, POLLNVAL⟩, ⟨5, 1, POLLHUP⟩]⟩
              (ready [⟨3, 1, 0⟩, ⟨4, 5, POLLIN ||| POLLOUT⟩, ⟨6, 1, POLLNVAL⟩, ⟨5, 1, POLLHUP⟩]).length Errno.eintr =
            ((ready pre).map fun q => (q.fd, evMask 1 2 q.revents), .aborted)) ∧
      ∀ r, (evMask 1 2 r &&& 1 ≠ 0 ↔ r &&& (POLLIN ||| POLLERR ||| POLLHUP) ≠ 0) ∧
        (evMask 1 2 r &&& 2 ≠ 0 ↔ r &&& (POLLOUT ||| POLLERR ||| POLLHUP) ≠ 0) :=
  ⟨by decide, by decide, by decide, wait_dispatches_ready 1 2 (by decide) (by decide) (by decide)
    ⟨[], [⟨3, 1, 0⟩, ⟨4, 5, POLLIN ||| POLLOUT⟩, ⟨6, 1, POLLNVAL⟩, ⟨5, 1, POLLHUP⟩]⟩ .eintr⟩

def DispatchContract : Prop :=
  ∀ (s : EVBackend) (errno : Errno), (wait EV_READ EV_WRITE s (ready s.pollFd).length errno).1 =
    (s.pollFd.filter fun p => p.revents ≠ 0 ∧ p.revents &&& POLLNVAL = 0).map
      fun p => (p.fd, evMask EV_READ EV_WRITE p.revents)

theorem dispatch_contract_fails : ¬ ∃ EV_READ EV_WRITE, DispatchContract EV_READ EV_WRITE := by
  rintro ⟨EV_READ, EV_WRITE, h⟩
  have h1 : ([] : List (Nat × Nat)) = [(4, evMask EV_READ EV_WRITE POLLIN)] :=
    h ⟨[], [⟨3, 1, POLLNVAL⟩, ⟨4, 1, POLLIN⟩]⟩ .eintr
  exact List.cons_ne_nil _ _ h1.symm

end EVBackend
end EvPoll
