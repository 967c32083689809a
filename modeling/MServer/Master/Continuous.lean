import MServer.Master.Buffer
import MServer.Engine.Buffer

namespace MasterBuffer

namespace Buffer

def checkUsedFrom (len used : Nat) : List Chunk → Bool
  | [] => decide (len ≤ used)
  | c :: cs => if used < len then checkUsedFrom len ((used + c.usedSize) % 2 ^ 32) cs else decide (len ≤ used)

def checkUsedSize (b : Buffer) (len : Nat) : Bool :=
  checkUsedFrom len ((b.chunks.head b.ne).usedSize % 2 ^ 32) b.chunks.tail

theorem checkUsedFrom_eq (len : Nat) (cs : List Chunk) (used : Nat)
    (h : used + (cs.map Chunk.usedSize).sum < 2 ^ 32) :
    checkUsedFrom len used cs = decide (len ≤ used + (cs.map Chunk.usedSize).sum) := by
  induction cs generalizing used with
  | nil => simp [checkUsedFrom]
  | cons c cs ih =>
    simp only [List.map_cons, List.sum_cons] at h ⊢
    rw [checkUsedFrom, Nat.mod_eq_of_lt (by omega), ih _ (by omega)]
    split <;> simp only [decide_eq_decide] <;> omega

theorem checkUsedSize_iff_total :
    (∀ (b : EngineBuffer.Buffer) (len : Nat), b.chunks ≠ [] →
      b.checkUsedSize len = some (decide (len ≤ b.getAllUsedSize))) ∧
    ∀ (b : Buffer) (len : Nat), (b.chunks.map Chunk.usedSize).sum < 2 ^ 32 →
      b.checkUsedSize len = decide (len ≤ (b.chunks.map Chunk.usedSize).sum) := by
  refine ⟨fun b len h => EngineBuffer.Buffer.checkUsedSize_eq h len, fun b len h => ?_⟩
  obtain ⟨c, cs, hcs⟩ := List.exists_cons_of_ne_nil b.ne
  simp only [hcs, List.map_cons, List.sum_cons] at h ⊢
  simp only [checkUsedSize, hcs, List.head_cons, List.tail_cons]
  rw [Nat.mod_eq_of_lt (by omega), checkUsedFrom_eq len cs _ h]

theorem checkUsedSize_iff_total_sample :
    ((⟨[EngineBuffer.Chunk.new], 1⟩ : EngineBuffer.Buffer).chunks ≠ [] ∧
      (⟨[EngineBuffer.Chunk.new], 1⟩ : EngineBuffer.Buffer).checkUsedSize 3 =
        some (decide (3 ≤ (⟨[EngineBuffer.Chunk.new], 1⟩ : EngineBuffer.Buffer).getAllUsedSize))) ∧
    (([⟨[1, 2], 2, 0, 2⟩, ⟨[3, 4], 2, 0, 2⟩] : List Chunk).map Chunk.usedSize).sum < 2 ^ 32 ∧
      checkUsedSize ⟨[⟨[1, 2], 2, 0, 2⟩, ⟨[3, 4], 2, 0, 2⟩], List.cons_ne_nil _ _⟩ 3 =
        decide (3 ≤ (([⟨[1, 2], 2, 0, 2⟩, ⟨[3, 4], 2, 0, 2⟩] : List Chunk).map Chunk.usedSize).sum) :=
  ⟨⟨List.cons_ne_nil _ _, checkUsedSize_iff_total.1 _ 3 (List.cons_ne_nil _ _)⟩,
    by decide, checkUsedSize_iff_total.2 ⟨[⟨[1, 2], 2, 0, 2⟩, ⟨[3, 4], 2, 0, 2⟩], List.cons_ne_nil _ _⟩ 3
      (by decide)⟩

theorem checkUsedSize_wraps :
    (∀ c ∈ ([⟨[0], 1, 0, 1⟩, ⟨List.replicate (2 ^ 32 - 1) 0, 2 ^ 32 - 1, 0, 2 ^ 32 - 1⟩] : List Chunk),
      c.Valid) ∧
    checkUsedSize ⟨[⟨[0], 1, 0, 1⟩, ⟨List.replicate (2 ^ 32 - 1) 0, 2 ^ 32 - 1, 0, 2 ^ 32 - 1⟩],
      List.cons_ne_nil _ _⟩ (2 ^ 32 - 1) = false ∧
    2 ^ 32 - 1 ≤ (([⟨[0], 1, 0, 1⟩, ⟨List.replicate (2 ^ 32 - 1) 0, 2 ^ 32 - 1, 0, 2 ^ 32 - 1⟩] :
      List Chunk).map Chunk.usedSize).sum := by
  refine ⟨fun c hc => ?_, ?_, ?_⟩
  · rcases List.mem_pair.1 hc with rfl | rfl
    · exact ⟨Nat.zero_le _, le_refl _, rfl⟩
    · exact ⟨Nat.zero_le _, le_refl _, List.length_replicate _ _⟩
  · simp only [checkUsedSize, List.head_cons, List.tail_cons, checkUsedFrom, Chunk.usedSize]
    decide
  · simp only [List.map_cons, List.map_nil, List.sum_cons, List.sum_nil, Chunk.usedSize]
    decide

inductive CtxRef where
  | head
  | scratch
deriving DecidableEq, Repr

def copyOut (dst n : Nat) (c : Chunk) : Nat × List UInt8 := (dst, (c.ctx.drop c.beg).take n)

def copyUsedFrom (len used : Nat) (c : Chunk) : List Chunk → Nat × List (Nat × List UInt8)
  | [] => ((used + c.usedSize) % 2 ^ 32, [copyOut used (min (len - used) c.usedSize) c])
  | d :: ds =>
    let used' := (used + c.usedSize) % 2 ^ 32
    if used' < len then
      (copyUsedFrom len used' d ds).map id (copyOut used (min (len - used) c.usedSize) c :: ·)
    else (used', [copyOut used (min (len - used) c.usedSize) c])

def checkUsedCtx (b : Buffer) (len : Nat) : List (Nat × List UInt8) × Option CtxRef :=
  let front := b.chunks.head b.ne
  if len ≤ front.usedSize then ([], some .head)
  else
    let (used, copies) := copyUsedFrom len 0 front b.chunks.tail
    (copies, if used = len then some .scratch else none)

def copyAllFrom (used : Nat) : List Chunk → Nat × List (Nat × List UInt8)
  | [] => (used, [])
  | c :: cs => (copyAllFrom ((used + c.usedSize) % 2 ^ 32) cs).map id (copyOut used c.usedSize c :: ·)

def checkAllUsedCtx (b : Buffer) : List (Nat × List UInt8) × Option (Nat × CtxRef) :=
  match b.chunks with
  | [c] => ([], some (c.usedSize, .head))
  | cs =>
    let (used, copies) := copyAllFrom 0 cs
    (copies, if 0 < used then some (used, .scratch) else none)

theorem checkUsedCtx_overcounts :
    checkUsedSize ⟨[⟨[1, 2, 3], 3, 0, 3⟩, ⟨[4, 5, 6, 7, 8], 5, 0, 5⟩], List.cons_ne_nil _ _⟩ 5 = true ∧
      copyUsedFrom 5 0 ⟨[1, 2, 3], 3, 0, 3⟩ [⟨[4, 5, 6, 7, 8], 5, 0, 5⟩] =
        (8, [(0, [1, 2, 3]), (3, [4, 5])]) ∧
      checkUsedCtx ⟨[⟨[1, 2, 3], 3, 0, 3⟩, ⟨[4, 5, 6, 7, 8], 5, 0, 5⟩], List.cons_ne_nil _ _⟩ 5 =
        ([(0, [1, 2, 3]), (3, [4, 5])], none) := by
  decide

theorem checkAllUsedCtx_overruns :
    (∀ MAX_PACKET_LEN : Nat,
      (∀ c ∈ ([⟨List.replicate (MAX_PACKET_LEN + 1) 1, MAX_PACKET_LEN + 1, 0, MAX_PACKET_LEN + 1⟩,
        ⟨[2], 1, 0, 1⟩] : List Chunk), c.Valid) ∧
      ∃ st ∈ (checkAllUsedCtx ⟨[⟨List.replicate (MAX_PACKET_LEN + 1) 1, MAX_PACKET_LEN + 1, 0,
          MAX_PACKET_LEN + 1⟩, ⟨[2], 1, 0, 1⟩], List.cons_ne_nil _ _⟩).1,
        MAX_PACKET_LEN < st.1 + st.2.length) ∧
    checkAllUsedCtx ⟨[⟨[0], 1, 0, 0⟩, ⟨[0], 1, 0, 0⟩], List.cons_ne_nil _ _⟩ =
      ([(0, []), (0, [])], none) := by
  refine ⟨fun P => ⟨fun c hc => ?_, ?_⟩, by decide⟩
  · rcases List.mem_pair.1 hc with rfl | rfl
    · exact ⟨Nat.zero_le _, le_refl _, List.length_replicate _ _⟩
    · exact ⟨Nat.zero_le _, le_refl _, rfl⟩
  · simp only [checkAllUsedCtx, copyAllFrom, copyOut, Prod.map]
    exact ⟨_, List.mem_cons_self _ _, by simp [Chunk.usedSize]⟩

end Buffer

end MasterBuffer
