import MServer.Ev.Poll

namespace EvPoll

namespace EVBackend

def poll (kernel : PollFd → Nat) (s : EVBackend) : EVBackend :=
  { s with pollFd := s.pollFd.map fun p => { p with revents := kernel p } }

def KernelOk (kernel : PollFd → Nat) : Prop :=
  ∀ p, kernel p &&& (p.events ||| POLLERR ||| POLLHUP) = kernel p

theorem and_of_reported {r e b : Nat} (hk : r &&& (e ||| POLLERR ||| POLLHUP) = r) (herr : POLLERR &&& b = 0)
    (hhup : POLLHUP &&& b = 0) (he : e &&& b = 0) : r &&& b = 0 := by
  rw [← hk, Nat.and_assoc, Nat.and_distrib_right, Nat.and_distrib_right, he, herr, hhup]
  simp only [Nat.or_zero, Nat.and_zero]

theorem and_or3 {r a b c : Nat} (h : r &&& (a ||| b ||| c) ≠ 0) :
    r &&& a ≠ 0 ∨ r &&& b ≠ 0 ∨ r &&& c ≠ 0 := by
  by_contra hn
  simp only [not_or, not_not] at hn
  apply h
  rw [Nat.and_or_distrib_left, Nat.and_or_distrib_left, hn.1, hn.2.1, hn.2.2]
  rfl

variable {EV_READ EV_WRITE : Nat}

theorem pollEvents_and_nval (v : Nat) : pollEvents EV_READ EV_WRITE v &&& POLLNVAL = 0 := by
  unfold pollEvents
  split_ifs <;> decide

theorem ready_poll (kernel : PollFd → Nat) (ps : List PollFd) :
    ready (ps.map fun p => { p with revents := kernel p }) =
      (ps.filter fun p => kernel p ≠ 0).map fun p => { p with revents := kernel p } := by
  simp only [ready, List.filter_map]
  rfl

theorem evMask_within_interest (hrw : EV_READ &&& EV_WRITE = 0) {M : Nat → Nat} {s : EVBackend}
    (hs : Represents EV_READ EV_WRITE M s) {kernel : PollFd → Nat} (hk : KernelOk kernel) {p : PollFd}
    (hp : p ∈ s.pollFd) :
    (evMask EV_READ EV_WRITE (kernel p) &&& EV_READ ≠ 0 →
        M p.fd &&& EV_READ ≠ 0 ∨ kernel p &&& POLLERR ≠ 0 ∨ kernel p &&& POLLHUP ≠ 0) ∧
      (evMask EV_READ EV_WRITE (kernel p) &&& EV_WRITE ≠ 0 →
        M p.fd &&& EV_WRITE ≠ 0 ∨ kernel p &&& POLLERR ≠ 0 ∨ kernel p &&& POLLHUP ≠ 0) := by
  obtain ⟨hread, hwrite⟩ := evMask_and hrw (kernel p)
  have ht := hs.table
  refine ⟨fun h => ?_, fun h => ?_⟩
  · rw [hread, ne_eq, ite_eq_right_iff, not_forall] at h
    obtain ⟨hbits, -⟩ := h
    refine (and_or3 hbits).imp (fun hin => (ht.pollin_iff p hp).1 fun he => hin ?_) id
    exact and_of_reported (hk p) (by decide) (by decide) (by rw [Nat.and_comm]; exact he)
  · rw [hwrite, ne_eq, ite_eq_right_iff, not_forall] at h
    obtain ⟨hbits, -⟩ := h
    refine (and_or3 hbits).imp (fun hout => (ht.pollout_iff p hp).1 fun he => hout ?_) id
    exact and_of_reported (hk p) (by decide) (by decide) (by rw [Nat.and_comm]; exact he)

theorem wait_dispatches_only_watched (hrw : EV_READ &&& EV_WRITE = 0) (calls : List Call) (h : Disciplined calls)
    (kernel : PollFd → Nat) (hk : KernelOk kernel) (errno : Errno) :
    ∃ s, run EV_READ EV_WRITE calls = some s ∧
      (∀ fd, fd ∈ s.pollFd.map PollFd.fd ↔ interest calls fd ≠ 0) ∧ (s.pollFd.map PollFd.fd).Nodup ∧
      wait EV_READ EV_WRITE (poll kernel s) (ready (poll kernel s).pollFd).length errno =
        ((s.pollFd.filter fun p => kernel p ≠ 0).map fun p => (p.fd, evMask EV_READ EV_WRITE (kernel p)), .done) ∧
      ∀ p ∈ s.pollFd,
        (evMask EV_READ EV_WRITE (kernel p) &&& EV_READ ≠ 0 →
          interest calls p.fd &&& EV_READ ≠ 0 ∨ kernel p &&& POLLERR ≠ 0 ∨ kernel p &&& POLLHUP ≠ 0) ∧
        (evMask EV_READ EV_WRITE (kernel p) &&& EV_WRITE ≠ 0 →
          interest calls p.fd &&& EV_WRITE ≠ 0 ∨ kernel p &&& POLLERR ≠ 0 ∨ kernel p &&& POLLHUP ≠ 0) := by
  obtain ⟨s, hrun, hs⟩ := (@represents_init EV_READ EV_WRITE).run_from calls h
  have hnval : ∀ q ∈ (poll kernel s).pollFd, q.revents ≠ 0 → q.revents &&& POLLNVAL = 0 := by
    intro q hq _
    obtain ⟨p, hp, rfl⟩ := List.mem_map.1 hq
    obtain ⟨i, hi⟩ := List.mem_iff_getElem?.1 hp
    refine and_of_reported (hk p) (by decide) (by decide) ?_
    rw [hs.entry_events i p hi]
    exact pollEvents_and_nval _
  refine ⟨s, hrun, hs.mem_iff, hs.nodup, ?_, fun p hp => evMask_within_interest hrw hs hk hp⟩
  rw [wait.eq_def, if_neg (by omega), Int.toNat_ofNat, dispatch_ready _ hnval]
  simp only [poll, ready_poll, List.map_map]
  rfl

theorem kernelOk_pollin : KernelOk fun p => p.events &&& POLLIN := fun p =>
  Nat.eq_of_testBit_eq fun i => by
    simp only [Nat.testBit_and, Nat.testBit_or]
    cases Nat.testBit p.events i <;> simp

theorem wait_dispatches_only_watched_sample :
    (1 : Nat) &&& 2 = 0 ∧ Disciplined [⟨3, 0, 1⟩, ⟨7, 0, 2⟩, ⟨9, 0, 3⟩] ∧
      KernelOk (fun p => p.events &&& POLLIN) ∧
      ∃ s, run 1 2 [⟨3, 0, 1⟩, ⟨7, 0, 2⟩, ⟨9, 0, 3⟩] = some s ∧
        (∀ fd, fd ∈ s.pollFd.map PollFd.fd ↔ interest [⟨3, 0, 1⟩, ⟨7, 0, 2⟩, ⟨9, 0, 3⟩] fd ≠ 0) ∧
        (s.pollFd.map PollFd.fd).Nodup ∧
        wait 1 2 (poll (fun p => p.events &&& POLLIN) s) (ready (poll (fun p => p.events &&& POLLIN) s).pollFd).length
            Errno.eintr =
          ((s.pollFd.filter fun p => p.events &&& POLLIN ≠ 0).map
            fun p => (p.fd, evMask 1 2 (p.events &&& POLLIN)), .done) ∧
        ∀ p ∈ s.pollFd,
          (evMask 1 2 (p.events &&& POLLIN) &&& 1 ≠ 0 →
            interest [⟨3, 0, 1⟩, ⟨7, 0, 2⟩, ⟨9, 0, 3⟩] p.fd &&& 1 ≠ 0 ∨
              p.events &&& POLLIN &&& POLLERR ≠ 0 ∨ p.events &&& POLLIN &&& POLLHUP ≠ 0) ∧
          (evMask 1 2 (p.events &&& POLLIN) &&& 2 ≠ 0 →
            interest [⟨3, 0, 1⟩, ⟨7, 0, 2⟩, ⟨9, 0, 3⟩] p.fd &&& 2 ≠ 0 ∨
              p.events &&& POLLIN &&& POLLERR ≠ 0 ∨ p.events &&& POLLIN &&& POLLHUP ≠ 0) :=
  ⟨by decide, by decide, kernelOk_pollin,
    wait_dispatches_only_watched (by decide) _ (by decide) _ kernelOk_pollin Errno.eintr⟩

end EVBackend

end EvPoll
