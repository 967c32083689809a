import MServer.Engine.Io

namespace NetIo

open EngineBuffer Buffer

inductive Event where
  | recv (kernel : Nat → Int × List UInt8) (isError : Bool)
  | send (kernel : Nat → Int) (isError : Bool)
  | remove (len : Nat)

namespace Event

def KernelOk : Event → Prop
  | .recv kernel _ => ∀ size, 0 < (kernel size).1 →
      ((kernel size).2.length : Int) = (kernel size).1 ∧ (kernel size).1 ≤ size
  | .send kernel _ => ∀ bytes, kernel bytes ≤ bytes
  | .remove _ => True

variable (BUFFER_CHUNK : Nat)

def step (b : Buffer) : Event → Option Buffer
  | .recv kernel isError => (NetIo.recv BUFFER_CHUNK b kernel isError).map (·.2.2)
  | .send kernel isError => (NetIo.send b (kernel b.getUsedSize) isError).map (·.2.2)
  | .remove len => if len ≤ b.getAllUsedSize then some (b.remove len) else none

def Asserts (b : Buffer) : Event → Prop
  | .recv _ _ => False
  | .send _ _ => b.getAllUsedSize = 0
  | .remove len => b.getAllUsedSize < len

def received (b : Buffer) : Event → List UInt8
  | .recv kernel _ =>
    match reserved BUFFER_CHUNK b 0 with
    | some (true, b1) => if 0 < (kernel b1.getSpaceSize).1 then (kernel b1.getSpaceSize).2 else []
    | _ => []
  | .send _ _ => []
  | .remove _ => []

def taken (b : Buffer) : Event → List UInt8
  | .recv _ _ => []
  | .send kernel _ =>
    if 0 < kernel b.getUsedSize then b.getUsedCtx.take (kernel b.getUsedSize).toNat else []
  | .remove len => b.stream.take len

end Event

def run (BUFFER_CHUNK : Nat) : Buffer → List Event → Option (List UInt8 × List UInt8 × Buffer)
  | b, [] => some ([], [], b)
  | b, e :: es => (e.step BUFFER_CHUNK b).bind fun b' =>
      (run BUFFER_CHUNK b' es).map fun r => (e.received BUFFER_CHUNK b ++ r.1, e.taken b ++ r.2.1, r.2.2)

section Step

variable (BUFFER_CHUNK : Nat) {b : Buffer} (hb : Inv b) (ha : HeadOnly b)
include hb ha

theorem recv_step {kernel : Nat → Int × List UInt8} {isError : Bool}
    (hk : (Event.recv kernel isError).KernelOk) :
    ∃ b', (Event.recv kernel isError).step BUFFER_CHUNK b = some b' ∧ Inv b' ∧ HeadOnly b' ∧
      b'.stream = b.stream ++ (Event.recv kernel isError).received BUFFER_CHUNK b := by
  obtain ⟨⟨cs, n⟩, hres, hb1, ha1, hs1, hsp⟩ := hb.reserved_zero BUFFER_CHUNK ha
  rcases List.eq_nil_or_concat cs with rfl | ⟨init, back, rfl⟩
  · exact absurd hsp (by simp [getSpaceSize])
  rw [List.concat_eq_append] at hres hb1 ha1 hs1 hsp
  simp only [getSpaceSize_concat] at hsp
  rcases hker : kernel back.spaceSize with ⟨len, data⟩
  by_cases hlen : 0 < len
  · obtain ⟨hdl, hle⟩ := hk back.spaceSize (by rw [hker]; exact hlen)
    simp only [hker] at hdl hle
    have hcur := hb1.cursors back (by simp)
    have hd : back.freePos + data.length ≤ MAX_CTX := by simp only [Chunk.spaceSize] at hle; omega
    refine ⟨⟨init ++ [{ back.writeFree data with freePos := back.freePos + data.length }], n⟩, ?_,
      hb1.setLast ⟨by simp; omega, hd⟩, ha1.setLast (by rfl) _, ?_⟩
    · have : len.toNat = data.length := by omega
      simp [Event.step, recv, hres, hker, hlen, Chunk.addUsed, hd, this]
    · simp only [Event.received, hres, getSpaceSize_concat, hker, if_pos hlen]
      rw [stream_concat, Chunk.pending_writeFree_advance back data hcur.1 hd, ← hs1, stream_concat,
        List.append_assoc]
  · refine ⟨_, ?_, hb1, ha1, by simp [Event.received, hres, hker, hlen, hs1]⟩
    simp only [Event.step, recv, hres, getSpaceSize_concat, hker, if_neg hlen]
    split_ifs <;> rfl

theorem send_step {kernel : Nat → Int} {isError : Bool} (hk : (Event.send kernel isError).KernelOk)
    (hu : b.getAllUsedSize ≠ 0) :
    ∃ b', (Event.send kernel isError).step BUFFER_CHUNK b = some b' ∧ Inv b' ∧ HeadOnly b' ∧
      b.stream = (Event.send kernel isError).taken b ++ b'.stream := by
  have hbytes : b.getUsedSize ≠ 0 := fun h => hu (hb.getUsedSize_eq_zero.1 h)
  have hle := hk b.getUsedSize
  by_cases hlen : 0 < kernel b.getUsedSize
  · refine ⟨b.remove (kernel b.getUsedSize).toNat, by simp [Event.step, send, hbytes, hlen],
      hb.remove _, ha.remove _, ?_⟩
    rw [Event.taken, if_pos hlen, hb.take_getUsedCtx (by omega), hb.stream_remove, List.take_append_drop]
  · refine ⟨b, ?_, hb, ha, by simp [Event.taken, hlen]⟩
    simp only [Event.step, send, if_neg hbytes, if_neg hlen]
    split_ifs <;> rfl

theorem step_spec {e : Event} (hk : e.KernelOk) :
    (∃ b', e.step BUFFER_CHUNK b = some b' ∧ Inv b' ∧ HeadOnly b' ∧
      b.stream ++ e.received BUFFER_CHUNK b = e.taken b ++ b'.stream) ∨
    e.step BUFFER_CHUNK b = none ∧ e.Asserts b := by
  cases e with
  | recv kernel isError =>
    obtain ⟨b', h, hb', ha', hs⟩ := recv_step BUFFER_CHUNK hb ha hk
    exact .inl ⟨b', h, hb', ha', by rw [hs]; rfl⟩
  | send kernel isError =>
    by_cases hu : b.getAllUsedSize = 0
    · have hbytes : b.getUsedSize = 0 := hb.getUsedSize_eq_zero.2 hu
      exact .inr ⟨by simp [Event.step, send, hbytes], hu⟩
    · obtain ⟨b', h, hb', ha', hs⟩ := send_step BUFFER_CHUNK hb ha hk hu
      exact .inl ⟨b', h, hb', ha', by rw [← hs]; exact List.append_nil _⟩
  | remove len =>
    by_cases hl : len ≤ b.getAllUsedSize
    · refine .inl ⟨b.remove len, if_pos hl, hb.remove len, ha.remove len, ?_⟩
      rw [Event.received, List.append_nil, hb.stream_remove, Event.taken, List.take_append_drop]
    · exact .inr ⟨if_neg hl, Nat.lt_of_not_le hl⟩

end Step

theorem run_moves_bytes_in_order (BUFFER_CHUNK : Nat) {b : Buffer} (hb : Inv b) (ha : HeadOnly b)
    (es : List Event) (hk : ∀ e ∈ es, e.KernelOk) :
    (∃ i o b', run BUFFER_CHUNK b es = some (i, o, b') ∧ Inv b' ∧ HeadOnly b' ∧
      b.stream ++ i = o ++ b'.stream) ∨
    ∃ pre e post, es = pre ++ e :: post ∧ run BUFFER_CHUNK b es = none ∧
      ∃ i o b', run BUFFER_CHUNK b pre = some (i, o, b') ∧ Inv b' ∧ HeadOnly b' ∧
        b.stream ++ i = o ++ b'.stream ∧ e.Asserts b' := by
  induction es generalizing b with
  | nil => exact .inl ⟨[], [], b, rfl, hb, ha, by simp⟩
  | cons e es ih =>
    rcases step_spec BUFFER_CHUNK hb ha (hk e (List.mem_cons_self _ _)) with
      ⟨b1, hs, hb1, ha1, hlaw⟩ | ⟨hs, hfail⟩
    · have hlaw' {i o : List UInt8} {b' : Buffer} (h : b1.stream ++ i = o ++ b'.stream) :
          b.stream ++ (e.received BUFFER_CHUNK b ++ i) = e.taken b ++ o ++ b'.stream := by
        rw [← List.append_assoc, hlaw, List.append_assoc, h, List.append_assoc]
      rcases ih hb1 ha1 fun x hx => hk x (List.mem_cons_of_mem _ hx) with
        ⟨i, o, b', hr, hb', ha', h⟩ | ⟨pre, e', post, rfl, hnone, i, o, b', hpre, hb', ha', h, hf⟩
      · refine .inl ⟨e.received BUFFER_CHUNK b ++ i, e.taken b ++ o, b', by simp [run, hs, hr], hb', ha', ?_⟩
        rw [hlaw' h, List.append_assoc]
      · refine .inr ⟨e :: pre, e', post, rfl, by simp [run, hs, hnone], e.received BUFFER_CHUNK b ++ i,
          e.taken b ++ o, b', by simp [run, hs, hpre], hb', ha', ?_, hf⟩
        rw [hlaw' h, List.append_assoc]
    · exact .inr ⟨[], e, es, rfl, by simp [run, hs], [], [], b, rfl, hb, ha, by simp, hfail⟩

theorem empty_invariants : Inv ⟨[], 0⟩ ∧ HeadOnly ⟨[], 0⟩ ∧ Full ⟨[], 0⟩ :=
  ⟨⟨rfl, by simp, by simp⟩, by simp [HeadOnly], by simp [Full]⟩

theorem sample_kernelOk : ∀ e ∈ ([.recv (fun size => ((min 3 size : Nat), [1, 2, 3].take size)) false,
    .send (fun bytes => min 2 bytes) false, .remove 1] : List Event), e.KernelOk := by
  simp only [List.mem_cons, List.mem_singleton, List.not_mem_nil, or_false]
  rintro e (rfl | rfl | rfl)
  · intro size _
    simp only [List.length_take, List.length_cons, List.length_nil]
    omega
  · intro bytes; exact min_le_right _ _
  · trivial

theorem run_moves_bytes_in_order_sample :
    Inv ⟨[], 0⟩ ∧ HeadOnly ⟨[], 0⟩ ∧
      (∀ e ∈ ([.recv (fun size => ((min 3 size : Nat), [1, 2, 3].take size)) false,
        .send (fun bytes => min 2 bytes) false, .remove 1] : List Event), e.KernelOk) ∧
      ((∃ i o b', run 8192 ⟨[], 0⟩ [.recv (fun size => ((min 3 size : Nat), [1, 2, 3].take size)) false,
          .send (fun bytes => min 2 bytes) false, .remove 1] = some (i, o, b') ∧ Inv b' ∧ HeadOnly b' ∧
          (⟨[], 0⟩ : Buffer).stream ++ i = o ++ b'.stream) ∨
        ∃ pre e post, ([.recv (fun size => ((min 3 size : Nat), [1, 2, 3].take size)) false,
          .send (fun bytes => min 2 bytes) false, .remove 1] : List Event) = pre ++ e :: post ∧
          run 8192 ⟨[], 0⟩ [.recv (fun size => ((min 3 size : Nat), [1, 2, 3].take size)) false,
            .send (fun bytes => min 2 bytes) false, .remove 1] = none ∧
          ∃ i o b', run 8192 ⟨[], 0⟩ pre = some (i, o, b') ∧ Inv b' ∧ HeadOnly b' ∧
            (⟨[], 0⟩ : Buffer).stream ++ i = o ++ b'.stream ∧ e.Asserts b') :=
  ⟨empty_invariants.1, empty_invariants.2.1, sample_kernelOk,
    run_moves_bytes_in_order 8192 empty_invariants.1 empty_invariants.2.1 _ sample_kernelOk⟩

theorem recv_dropLast {B : Nat} {b b' : Buffer} {kernel : Nat → Int × List UInt8} {isError : Bool} {r l : Int}
    (h : recv B b kernel isError = some (r, l, b')) :
    ∃ ok b1, reserved B b 0 = some (ok, b1) ∧ b'.chunks.dropLast = b1.chunks.dropLast := by
  unfold recv at h
  rcases hres : reserved B b 0 with _ | ⟨ok, b1⟩
  · simp [hres] at h
  refine ⟨ok, b1, rfl, ?_⟩
  rcases ok
  · simp only [hres, Option.some.injEq, Prod.mk.injEq] at h
    rw [h.2.2]
  rcases hk : kernel b1.getSpaceSize with ⟨len, data⟩
  simp only [hres, hk] at h
  split_ifs at h
  · simp only [Option.bind_eq_bind, Option.bind_eq_some, writeSpace, addUsedOffset, Option.map_eq_some',
      Option.pure_def, Option.some.injEq, Prod.mk.injEq] at h
    obtain ⟨b2, ⟨back, -, rfl⟩, b3, ⟨back', -, c, -, rfl⟩, -, -, rfl⟩ := h
    simp
  all_goals simp only [Option.some.injEq, Prod.mk.injEq] at h; rw [h.2.2]

theorem Full.step (B : Nat) {b b' : Buffer} (hb : Inv b) (hf : Full b) {e : Event} (h : e.step B b = some b') :
    Full b' := by
  cases e with
  | recv kernel isError =>
    obtain ⟨⟨r, l, b2⟩, hr, rfl⟩ := Option.map_eq_some'.1 h
    obtain ⟨ok, b1, hres, hd⟩ := recv_dropLast hr
    exact fun c hc => Full.reserved_zero B hb hf hres c (hd ▸ hc)
  | send kernel isError =>
    obtain ⟨⟨r, l, b2⟩, hs, rfl⟩ := Option.map_eq_some'.1 h
    simp only [send] at hs
    split_ifs at hs <;> simp only [Option.some.injEq, Prod.mk.injEq, reduceCtorEq] at hs <;> rw [← hs.2.2]
    all_goals first | exact hf.remove _ | exact hf
  | remove len =>
    simp only [Event.step] at h
    split_ifs at h
    cases h
    exact hf.remove len

theorem run_memory_bounded_by_pending (BUFFER_CHUNK : Nat) {b : Buffer} (hb : Inv b) (ha : HeadOnly b)
    (hf : Full b) (es : List Event) (hk : ∀ e ∈ es, e.KernelOk) {i o : List UInt8} {b' : Buffer}
    (h : run BUFFER_CHUNK b es = some (i, o, b')) :
    Full b' ∧ (b'.chunks.length - 2) * MAX_CTX ≤ b'.getAllUsedSize := by
  induction es generalizing b i o with
  | nil =>
    cases h
    exact ⟨hf, hf.chunks_le ha⟩
  | cons e es ih =>
    simp only [run, Option.bind_eq_some, Option.map_eq_some'] at h
    obtain ⟨b1, hs, ⟨i', o', b2⟩, hr, heq⟩ := h
    cases heq
    rcases step_spec BUFFER_CHUNK hb ha (hk e (List.mem_cons_self _ _)) with
      ⟨b1', hs', hb1, ha1, -⟩ | ⟨hnone, -⟩
    · obtain rfl : b1 = b1' := Option.some_injective _ (hs.symm.trans hs')
      exact ih hb1 ha1 (Full.step BUFFER_CHUNK hb hf hs) (fun x hx => hk x (List.mem_cons_of_mem _ hx)) hr
    · rw [hs] at hnone
      cases hnone

theorem run_memory_bounded_by_pending_sample :
    Inv ⟨[], 0⟩ ∧ HeadOnly ⟨[], 0⟩ ∧ Full ⟨[], 0⟩ ∧
      (∀ e ∈ ([.recv (fun size => ((min 3 size : Nat), [1, 2, 3].take size)) false,
        .send (fun bytes => min 2 bytes) false, .remove 1] : List Event), e.KernelOk) ∧
      ∃ i o b', run 8192 ⟨[], 0⟩ [.recv (fun size => ((min 3 size : Nat), [1, 2, 3].take size)) false,
          .send (fun bytes => min 2 bytes) false, .remove 1] = some (i, o, b') ∧
        Full b' ∧ (b'.chunks.length - 2) * MAX_CTX ≤ b'.getAllUsedSize :=
  ⟨empty_invariants.1, empty_invariants.2.1, empty_invariants.2.2, sample_kernelOk, _, _, _, rfl,
    run_memory_bounded_by_pending 8192 empty_invariants.1 empty_invariants.2.1 empty_invariants.2.2 _
      sample_kernelOk rfl⟩

end NetIo
