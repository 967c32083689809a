import MServer.Master.Buffer

namespace MasterBuffer

def Chunk.Sound (c : Chunk) : Prop := c.Valid ∧ 0 < c.max ∧ (c.usedSize = 0 → c.endPos = 0)

namespace Chunk

theorem Sound.append {c : Chunk} (h : c.Sound) {data : List UInt8} (hd : data.length ≤ c.spaceSize) :
    (c.append data).Sound := by
  obtain ⟨⟨hbe, hem, hlen⟩, hmax, hdr⟩ := h
  simp only [Sound, Valid, Chunk.append, usedSize, spaceSize, List.length_append, List.length_drop] at *
  omega

theorem Sound.remove {c : Chunk} (h : c.Sound) {len : Nat} (hl : len < c.usedSize) :
    (c.remove len).Sound ∧ 0 < (c.remove len).usedSize := by
  obtain ⟨⟨hbe, hem, hlen⟩, hmax, hdr⟩ := h
  simp only [Sound, Valid, Chunk.remove, usedSize] at *
  omega

theorem Sound.clear {c : Chunk} (h : c.Sound) : c.clear.Sound := by
  obtain ⟨⟨-, -, hlen⟩, hmax, -⟩ := h
  exact ⟨⟨le_rfl, Nat.zero_le _, hlen⟩, hmax, fun _ => rfl⟩

theorem Sound.usedSize_pos {c : Chunk} (h : c.Sound) (hs : c.spaceSize = 0) : 0 < c.usedSize := by
  obtain ⟨-, hmax, hdr⟩ := h
  simp only [spaceSize] at hs
  by_contra h0
  have := hdr (by omega)
  omega

end Chunk

theorem sound_newChunk (newCtx : Nat → Nat) {n : Nat} (h : 0 < newCtx n) : (Buffer.newChunk newCtx n).Sound :=
  ⟨⟨le_rfl, Nat.zero_le _, List.length_replicate _ _⟩, h, fun _ => rfl⟩

structure Shape (cs : List Chunk) : Prop where
  sound : ∀ c ∈ cs, c.Sound
  headOnly : ∀ c ∈ cs.tail, c.beg = 0
  nonempty : ∀ c ∈ cs.dropLast, 0 < c.usedSize

theorem shape_singleton {c : Chunk} (h : c.Sound) : Shape [c] :=
  ⟨fun x hx => by rw [List.mem_singleton.1 hx]; exact h, fun _ hx => (nomatch hx), fun _ hx => (nomatch hx)⟩

theorem Shape.tail {c : Chunk} {cs : List Chunk} (h : Shape (c :: cs)) : Shape cs where
  sound x hx := h.sound x (List.mem_cons_of_mem _ hx)
  headOnly x hx := h.headOnly x (List.mem_of_mem_tail hx)
  nonempty x hx := by
    cases cs with
    | nil => cases hx
    | cons d ds => exact h.nonempty x (by rw [List.dropLast_cons₂]; exact List.mem_cons_of_mem _ hx)

theorem Shape.head {c c' : Chunk} {cs : List Chunk} (h : Shape (c :: cs)) (hs : c'.Sound)
    (hne : cs ≠ [] → 0 < c'.usedSize) : Shape (c' :: cs) where
  sound x hx := by
    rcases List.mem_cons.1 hx with rfl | hx
    · exact hs
    · exact h.sound x (List.mem_cons_of_mem _ hx)
  headOnly := h.headOnly
  nonempty x hx := by
    cases cs with
    | nil => cases hx
    | cons d ds =>
      rw [List.dropLast_cons₂] at hx
      rcases List.mem_cons.1 hx with rfl | hx
      · exact hne (List.cons_ne_nil _ _)
      · exact h.nonempty x (by rw [List.dropLast_cons₂]; exact List.mem_cons_of_mem _ hx)

theorem Shape.push {cs : List Chunk} (h : Shape cs) (hne : cs ≠ []) (hback : 0 < (cs.getLast hne).usedSize)
    {x : Chunk} (hx : x.Sound) (hx0 : x.beg = 0) : Shape (cs ++ [x]) where
  sound c hc := by
    rcases List.mem_append.1 hc with hc | hc
    · exact h.sound c hc
    · rw [List.mem_singleton.1 hc]; exact hx
  headOnly c hc := by
    rw [List.tail_append_of_ne_nil hne] at hc
    rcases List.mem_append.1 hc with hc | hc
    · exact h.headOnly c hc
    · rw [List.mem_singleton.1 hc]; exact hx0
  nonempty c hc := by
    rw [List.dropLast_concat] at hc
    rw [← List.dropLast_append_getLast hne] at hc
    rcases List.mem_append.1 hc with hc | hc
    · exact h.nonempty c hc
    · rw [List.mem_singleton.1 hc]; exact hback

theorem Shape.mapLast {cs : List Chunk} (h : Shape cs) (hne : cs ≠ []) {y : Chunk} (hy : y.Sound)
    (hbeg : y.beg = (cs.getLast hne).beg) : Shape (cs.dropLast ++ [y]) where
  sound c hc := by
    rcases List.mem_append.1 hc with hc | hc
    · exact h.sound c (List.dropLast_subset _ hc)
    · rw [List.mem_singleton.1 hc]; exact hy
  headOnly c hc := by
    have hcs := List.dropLast_append_getLast hne
    by_cases hd : cs.dropLast = []
    · rw [hd] at hc; cases hc
    · rw [List.tail_append_of_ne_nil hd] at hc
      have htail : cs.tail = cs.dropLast.tail ++ [cs.getLast hne] := by
        conv_lhs => rw [← hcs]
        exact List.tail_append_of_ne_nil hd
      rcases List.mem_append.1 hc with hc | hc
      · exact h.headOnly c (by rw [htail]; exact List.mem_append_left _ hc)
      · rw [List.mem_singleton.1 hc, hbeg]
        exact h.headOnly _ (by rw [htail]; exact List.mem_append_right _ (List.mem_singleton_self _))
  nonempty c hc := by
    rw [List.dropLast_concat] at hc
    exact h.nonempty c hc

namespace Buffer

variable (newCtx : Nat → Nat)

inductive Op where
  | append (data : List UInt8)
  | remove (n : Nat)
deriving DecidableEq, Repr

def applyOp (b : Buffer) : Op → Option Buffer
  | .append data => append newCtx b data
  | .remove n => remove b n

def runOps (ops : List Op) : Option Buffer := ops.foldlM (applyOp newCtx) (init newCtx)

theorem shape_reserved (hC : 0 < newCtx 0) {b : Buffer} (h : Shape b.chunks) :
    Shape (reserved newCtx b 0).chunks := by
  by_cases hs : 0 < b.back.spaceSize
  · rw [reserved_of_pos newCtx hs]
    exact h
  · rw [reserved_of_zero newCtx (Nat.eq_zero_of_not_pos hs), chunks_pushBack]
    exact h.push b.ne ((h.sound _ (List.getLast_mem b.ne)).usedSize_pos (Nat.eq_zero_of_not_pos hs))
      (sound_newChunk newCtx hC) rfl

theorem shape_appendLoop (hC : 0 < newCtx 0) (fuel : Nat) :
    ∀ (b : Buffer) (data : List UInt8) (b' : Buffer), Shape b.chunks →
      appendLoop newCtx fuel b data = some b' → Shape b'.chunks := by
  induction fuel with
  | zero => intro _ _ _ _ h; cases h
  | succ f ih =>
    intro b data b' hb h
    have h1 := shape_reserved newCtx hC hb
    have hlen : (data.take (min (reserved newCtx b 0).back.spaceSize data.length)).length ≤
        (reserved newCtx b 0).back.spaceSize := by
      simp only [List.length_take]; omega
    have h2 := h1.mapLast (reserved newCtx b 0).ne
      ((h1.sound _ (List.getLast_mem (reserved newCtx b 0).ne)).append hlen) rfl
    simp only [appendLoop] at h
    split at h
    · exact ih _ _ _ h2 h
    · cases h
      exact h2

theorem shape_removeLoop (len : Nat) :
    ∀ (rest : List Chunk) (c : Chunk) (b' : Buffer), Shape (c :: rest) → removeLoop len c rest = some b' →
      Shape b'.chunks := by
  intro rest
  induction rest with
  | nil =>
    intro c b' hc h
    have hs := hc.sound c (List.mem_singleton_self c)
    simp only [removeLoop] at h
    split at h
    · cases h; exact shape_singleton (hs.remove ‹_›).1
    · split at h
      · cases h; exact shape_singleton hs.clear
      · cases h
  | cons d ds ih =>
    intro c b' hc h
    have hs := hc.sound c (List.mem_cons_self c _)
    simp only [removeLoop] at h
    split at h
    · cases h; exact hc.head (hs.remove ‹_›).1 fun _ => (hs.remove ‹_›).2
    · split at h
      · cases h; exact hc.tail
      · exact ih d b' hc.tail h

theorem shape_applyOp (hC : 0 < newCtx 0) {b b' : Buffer} (hb : Shape b.chunks) :
    ∀ op, applyOp newCtx b op = some b' → Shape b'.chunks
  | .append data, h => shape_appendLoop newCtx hC _ b data b' hb h
  | .remove n, h => by
    rcases b with ⟨_ | ⟨c, rest⟩, hne⟩
    · exact absurd rfl hne
    · exact shape_removeLoop n rest c b' hb h

theorem shape_foldlM (hC : 0 < newCtx 0) (ops : List Op) :
    ∀ (b b' : Buffer), Shape b.chunks → ops.foldlM (applyOp newCtx) b = some b' → Shape b'.chunks := by
  induction ops with
  | nil => intro b b' hb h; cases h; exact hb
  | cons op ops ih =>
    intro b b' hb h
    obtain ⟨b1, h1, h2⟩ := Option.bind_eq_some.1 h
    exact ih b1 b' (shape_applyOp newCtx hC hb op h1) h2

theorem shape_init (hC : 0 < newCtx 0) : Shape (init newCtx).chunks := shape_singleton (sound_newChunk newCtx hC)

theorem Shape.getUsedSize_eq_zero {b : Buffer} (h : Shape b.chunks) : b.getUsedSize = 0 ↔ b.stream = [] := by
  rcases b with ⟨_ | ⟨c, rest⟩, hne⟩
  · exact absurd rfl hne
  have hlen : c.pending.length = c.usedSize := Chunk.length_pending (h.sound c (List.mem_cons_self _ _)).1
  change c.usedSize = 0 ↔ (c.pending ++ (rest.map Chunk.pending).flatten) = []
  cases rest with
  | nil => simp [← hlen]
  | cons d ds =>
    have hpos := h.nonempty c (by rw [List.dropLast_cons₂]; exact List.mem_cons_self _ _)
    refine ⟨fun h0 => by omega, fun h0 => ?_⟩
    have := congrArg List.length h0
    simp only [List.length_append, hlen, List.length_nil] at this
    omega

theorem ops_keep_pending_ahead (hC : 0 < newCtx 0) (ops : List Op) {b : Buffer} (h : runOps newCtx ops = some b) :
    (∀ c ∈ b.chunks, c.beg ≤ c.endPos ∧ c.endPos ≤ c.max) ∧ (∀ c ∈ b.chunks.tail, c.beg = 0) ∧
      (∀ c ∈ b.chunks.dropLast, 0 < c.usedSize) ∧ (b.getUsedSize = 0 ↔ b.stream = []) := by
  have hs := shape_foldlM newCtx hC ops _ _ (shape_init newCtx hC) h
  exact ⟨fun c hc => ⟨(hs.sound c hc).1.1, (hs.sound c hc).1.2.1⟩, hs.headOnly, hs.nonempty,
    Shape.getUsedSize_eq_zero hs⟩

theorem ops_keep_pending_ahead_sample :
    0 < (fun _ => 4 : Nat → Nat) 0 ∧
      ∃ b, runOps (fun _ => 4) [.append [1, 2, 3, 4, 5, 6], .remove 2, .append [7]] = some b ∧
        (∀ c ∈ b.chunks, c.beg ≤ c.endPos ∧ c.endPos ≤ c.max) ∧ (∀ c ∈ b.chunks.tail, c.beg = 0) ∧
        (∀ c ∈ b.chunks.dropLast, 0 < c.usedSize) ∧ (b.getUsedSize = 0 ↔ b.stream = []) :=
  ⟨by decide, _, rfl, ops_keep_pending_ahead (fun _ => 4) (by decide)
    [.append [1, 2, 3, 4, 5, 6], .remove 2, .append [7]] rfl⟩

end Buffer

end MasterBuffer
