import Mathlib.Data.List.Basic

namespace MasterBuffer

structure Chunk where
  ctx : List UInt8
  max : Nat
  beg : Nat
  endPos : Nat
  deriving DecidableEq, Repr

namespace Chunk

def remove (c : Chunk) (len : Nat) : Chunk := { c with beg := c.beg + len }

def append (c : Chunk) (data : List UInt8) : Chunk :=
  { c with endPos := c.endPos + data.length, ctx := data ++ c.ctx.drop data.length }

def clear (c : Chunk) : Chunk := { c with beg := 0, endPos := 0 }

def usedSize (c : Chunk) : Nat := c.endPos - c.beg

def spaceSize (c : Chunk) : Nat := c.max - c.endPos

def pending (c : Chunk) : List UInt8 := (c.ctx.drop c.beg).take c.usedSize

def Valid (c : Chunk) : Prop := c.beg ≤ c.endPos ∧ c.endPos ≤ c.max ∧ c.ctx.length = c.max

instance : DecidablePred Valid := fun c =>
  inferInstanceAs (Decidable (c.beg ≤ c.endPos ∧ c.endPos ≤ c.max ∧ c.ctx.length = c.max))

@[simp] theorem usedSize_remove (c : Chunk) (len : Nat) : (c.remove len).usedSize = c.usedSize - len := by
  simp only [remove, usedSize]; omega

theorem pending_remove (c : Chunk) (len : Nat) : (c.remove len).pending = c.pending.drop len := by
  show (c.ctx.drop (c.beg + len)).take (c.remove len).usedSize = _
  rw [usedSize_remove, pending, List.drop_take, List.drop_drop]

@[simp] theorem usedSize_clear (c : Chunk) : c.clear.usedSize = 0 := rfl

@[simp] theorem pending_clear (c : Chunk) : c.clear.pending = [] := by simp [pending]

theorem length_pending {c : Chunk} (h : c.Valid) : c.pending.length = c.usedSize := by
  simp only [pending, usedSize, List.length_take, List.length_drop]
  unfold Valid at h
  omega

@[simp] theorem spaceSize_append (c : Chunk) (data : List UInt8) :
    (c.append data).spaceSize = c.spaceSize - data.length := by
  simp only [append, spaceSize]; omega

@[simp] theorem endPos_append (c : Chunk) (data : List UInt8) :
    (c.append data).endPos = c.endPos + data.length := rfl

end Chunk

structure Buffer where
  chunks : List Chunk
  ne : chunks ≠ []

namespace Buffer

instance : DecidableEq Buffer := fun a b =>
  decidable_of_iff (a.chunks = b.chunks) ⟨fun h => by cases a; cases b; cases h; rfl, fun h => h ▸ rfl⟩

variable (newCtx : Nat → Nat)

def newChunk (ctxSize : Nat) : Chunk := ⟨List.replicate (newCtx ctxSize) 0, newCtx ctxSize, 0, 0⟩

def init : Buffer := ⟨[newChunk newCtx 0], List.cons_ne_nil _ _⟩

@[simp] theorem spaceSize_newChunk (n : Nat) : (newChunk newCtx n).spaceSize = newCtx n := rfl

@[simp] theorem endPos_newChunk (n : Nat) : (newChunk newCtx n).endPos = 0 := rfl

@[simp] theorem max_newChunk (n : Nat) : (newChunk newCtx n).max = newCtx n := rfl

def back (b : Buffer) : Chunk := b.chunks.getLast b.ne

def stream (b : Buffer) : List UInt8 := (b.chunks.map Chunk.pending).flatten

def getUsedSize (b : Buffer) : Nat := (b.chunks.head b.ne).usedSize

def pushBack (b : Buffer) (c : Chunk) : Buffer := ⟨b.chunks ++ [c], by simp⟩

def mapBack (b : Buffer) (f : Chunk → Chunk) : Buffer := ⟨b.chunks.dropLast ++ [f b.back], by simp⟩

def reserved (b : Buffer) (len : Nat) : Buffer :=
  if b.back.spaceSize = 0 ∨ len > b.back.spaceSize then b.pushBack (newChunk newCtx len) else b

@[simp] theorem chunks_pushBack (b : Buffer) (c : Chunk) : (b.pushBack c).chunks = b.chunks ++ [c] := rfl

@[simp] theorem back_pushBack (b : Buffer) (c : Chunk) : (b.pushBack c).back = c := by
  simp [back, pushBack]

@[simp] theorem chunks_mapBack (b : Buffer) (f : Chunk → Chunk) :
    (b.mapBack f).chunks = b.chunks.dropLast ++ [f b.back] := rfl

@[simp] theorem back_mapBack (b : Buffer) (f : Chunk → Chunk) : (b.mapBack f).back = f b.back := by
  simp [back, mapBack]

theorem length_mapBack (b : Buffer) (f : Chunk → Chunk) : (b.mapBack f).chunks.length = b.chunks.length := by
  have := List.length_pos.2 b.ne
  simp only [chunks_mapBack, List.length_append, List.length_dropLast, List.length_singleton]
  omega

theorem reserved_of_pos {b : Buffer} (h : 0 < b.back.spaceSize) : reserved newCtx b 0 = b :=
  if_neg (by omega)

theorem reserved_of_zero {b : Buffer} (h : b.back.spaceSize = 0) :
    reserved newCtx b 0 = b.pushBack (newChunk newCtx 0) :=
  if_pos (.inl h)

def appendLoop : Nat → Buffer → List UInt8 → Option Buffer
  | 0, _, _ => none
  | fuel + 1, b, data =>
    let b := reserved newCtx b 0
    let size := min b.back.spaceSize data.length
    let b := b.mapBack (·.append (data.take size))
    if size < data.length then appendLoop fuel b (data.drop size) else some b

def append (b : Buffer) (data : List UInt8) : Option Buffer := appendLoop newCtx (data.length + 1) b data

theorem append_writes_at_chunk_start :
    (append (fun _ => 8) ⟨[⟨[97, 98, 99, 0, 0, 0, 0, 0], 8, 0, 3⟩], List.cons_ne_nil _ _⟩
        [100, 101]).map stream = some [100, 101, 99, 0, 0] ∧
      (append (fun _ => 8) ⟨[⟨[97, 98, 99, 0, 0, 0, 0, 0], 8, 0, 8⟩], List.cons_ne_nil _ _⟩
        []).map (·.chunks.length) = some 2 := by
  decide

theorem reserved_strands_empty_head :
    (reserved (fun n => max n 8) (init (fun n => max n 8)) 9).chunks.map Chunk.usedSize = [0, 0] ∧
      (append (fun n => max n 8) (reserved (fun n => max n 8) (init (fun n => max n 8)) 9)
        [7]).map (fun b => (b.getUsedSize, b.stream)) = some (0, [7]) := by
  decide

theorem appendLoop_fill {b : Buffer} {data : List UInt8} (f : Nat) (hs : 0 < b.back.spaceSize)
    (h : data.length ≤ b.back.spaceSize) :
    appendLoop newCtx (f + 1) b data = some (b.mapBack (·.append data)) := by
  simp [appendLoop, reserved_of_pos newCtx hs, min_eq_right h]

theorem appendLoop_spill {b : Buffer} {data : List UInt8} (f : Nat) (hs : 0 < b.back.spaceSize)
    (h : b.back.spaceSize < data.length) :
    appendLoop newCtx (f + 1) b data =
      appendLoop newCtx f (b.mapBack (·.append (data.take b.back.spaceSize))) (data.drop b.back.spaceSize) := by
  simp [appendLoop, reserved_of_pos newCtx hs, min_eq_left h.le, h]

theorem appendLoop_empty_back (hC : 0 < newCtx 0) {b : Buffer} (f : Nat) (data : List UInt8)
    (hs : b.back.spaceSize = 0) :
    appendLoop newCtx (f + 1) b data = appendLoop newCtx (f + 1) (b.pushBack (newChunk newCtx 0)) data := by
  have hpos : 0 < (b.pushBack (newChunk newCtx 0)).back.spaceSize := by simpa using hC
  simp only [appendLoop, reserved_of_zero newCtx hs, reserved_of_pos newCtx hpos]

theorem ceil_step {C m : Nat} (hC : 0 < C) (hm : 0 < m) : (m + C - 1) / C = 1 + (m - C + C - 1) / C := by
  rcases Nat.lt_or_ge C m with h | h
  · rw [show m + C - 1 = m - 1 + C by omega, show m - C + C - 1 = m - 1 by omega, Nat.add_div_right _ hC]
    omega
  · rw [show m - C + C - 1 = C - 1 by omega, Nat.div_eq_of_lt (by omega : C - 1 < C),
      Nat.div_eq_of_lt_le (by omega : 1 * C ≤ m + C - 1) (by omega : m + C - 1 < (1 + 1) * C)]

theorem appendLoop_chunks (hC : 0 < newCtx 0) (n : Nat) :
    ∀ fuel (b : Buffer) (data : List UInt8), data.length = n → n < fuel → b.back.endPos ≤ b.back.max →
      ∃ b', appendLoop newCtx fuel b data = some b' ∧
        b'.chunks.length = b.chunks.length + if 0 < b.back.spaceSize
          then (n - b.back.spaceSize + newCtx 0 - 1) / newCtx 0
          else 1 + (n - newCtx 0 + newCtx 0 - 1) / newCtx 0 := by
  induction n using Nat.strong_induction_on with
  | _ n ih =>
  have pos : ∀ fuel (b : Buffer) (data : List UInt8), data.length = n → n < fuel →
      b.back.endPos ≤ b.back.max → 0 < b.back.spaceSize → ∃ b', appendLoop newCtx fuel b data = some b' ∧
        b'.chunks.length = b.chunks.length + (n - b.back.spaceSize + newCtx 0 - 1) / newCtx 0 := by
    rintro (_ | f) b data rfl hf hend hs
    · omega
    by_cases hle : data.length ≤ b.back.spaceSize
    · refine ⟨_, appendLoop_fill newCtx f hs hle, ?_⟩
      rw [length_mapBack, show data.length - b.back.spaceSize + newCtx 0 - 1 = newCtx 0 - 1 by omega,
        Nat.div_eq_of_lt (by omega), Nat.add_zero]
    · rw [appendLoop_spill newCtx f hs (by omega)]
      have hspace : b.back.spaceSize = b.back.max - b.back.endPos := rfl
      obtain ⟨b', h', hlen⟩ := ih (data.length - b.back.spaceSize) (by omega) f
        (b.mapBack (·.append (data.take b.back.spaceSize))) (data.drop b.back.spaceSize) (by simp) (by omega)
        (by simp only [back_mapBack, Chunk.endPos_append, List.length_take]; simp [Chunk.append]; omega)
      refine ⟨b', h', ?_⟩
      rw [hlen, length_mapBack, if_neg (by simp; omega),
        ceil_step hC (by omega : 0 < data.length - b.back.spaceSize)]
  intro fuel b data hn hf hend
  by_cases hs : 0 < b.back.spaceSize
  · rw [if_pos hs]
    exact pos fuel b data hn hf hend hs
  · obtain ⟨f, rfl⟩ : ∃ f, fuel = f + 1 := ⟨fuel - 1, by omega⟩
    rw [if_neg hs, appendLoop_empty_back newCtx hC f data (by omega)]
    obtain ⟨b', h', hlen⟩ := pos (f + 1) (b.pushBack (newChunk newCtx 0)) data hn hf (by simp)
      (by simpa using hC)
    exact ⟨b', h', by simp [hlen]; omega⟩

theorem append_links_new_chunks (hC : 0 < newCtx 0) (b : Buffer) (data : List UInt8)
    (hend : b.back.endPos ≤ b.back.max) :
    ∃ b', append newCtx b data = some b' ∧ (0 < data.length ∨ 0 < b.back.spaceSize →
      b'.chunks.length = b.chunks.length + (data.length - b.back.spaceSize + newCtx 0 - 1) / newCtx 0) := by
  obtain ⟨b', h, hlen⟩ := appendLoop_chunks newCtx hC data.length (data.length + 1) b data rfl (by omega) hend
  refine ⟨b', h, fun hpos => ?_⟩
  rw [hlen]
  split
  · rfl
  · rw [show b.back.spaceSize = 0 by omega, Nat.sub_zero, ceil_step hC (by omega : 0 < data.length)]

theorem append_links_new_chunks_sample :
    0 < (fun _ => 4 : Nat → Nat) 0 ∧
      (⟨[⟨[1, 2, 0, 0], 4, 0, 2⟩], List.cons_ne_nil _ _⟩ : Buffer).back.endPos ≤
        (⟨[⟨[1, 2, 0, 0], 4, 0, 2⟩], List.cons_ne_nil _ _⟩ : Buffer).back.max ∧
      ∃ b', append (fun _ => 4) ⟨[⟨[1, 2, 0, 0], 4, 0, 2⟩], List.cons_ne_nil _ _⟩ [3, 4, 5, 6, 7] = some b' ∧
        (0 < [3, 4, 5, 6, 7].length ∨ 0 < (⟨[⟨[1, 2, 0, 0], 4, 0, 2⟩], List.cons_ne_nil _ _⟩ : Buffer).back.spaceSize →
          b'.chunks.length = (⟨[⟨[1, 2, 0, 0], 4, 0, 2⟩], List.cons_ne_nil _ _⟩ : Buffer).chunks.length +
            ([3, 4, 5, 6, 7].length - (⟨[⟨[1, 2, 0, 0], 4, 0, 2⟩], List.cons_ne_nil _ _⟩ : Buffer).back.spaceSize +
              (fun _ => 4 : Nat → Nat) 0 - 1) / (fun _ => 4 : Nat → Nat) 0) :=
  ⟨by decide, by decide, append_links_new_chunks (fun _ => 4) (by decide) _ _ (by decide)⟩

def removeLoop (len : Nat) (c : Chunk) : List Chunk → Option Buffer
  | [] =>
    if c.usedSize > len then some ⟨[c.remove len], List.cons_ne_nil _ _⟩
    else if c.usedSize = len then some ⟨[c.clear], List.cons_ne_nil _ _⟩
    else none
  | d :: ds =>
    if c.usedSize > len then some ⟨c.remove len :: d :: ds, List.cons_ne_nil _ _⟩
    else if c.usedSize = len then some ⟨d :: ds, List.cons_ne_nil _ _⟩
    else removeLoop len d ds

def remove (b : Buffer) (len : Nat) : Option Buffer := removeLoop len (b.chunks.head b.ne) b.chunks.tail

theorem remove_within_head (b : Buffer) (n : Nat) (hv : (b.chunks.head b.ne).Valid) (hn : n ≤ b.getUsedSize) :
    ∃ b', remove b n = some b' ∧ b'.stream = b.stream.drop n ∧
      (n = b.getUsedSize → 1 < b.chunks.length → b'.chunks = b.chunks.tail) := by
  rcases b with ⟨_ | ⟨c, rest⟩, hne⟩
  · exact absurd rfl hne
  have hlen : c.pending.length = c.usedSize := Chunk.length_pending hv
  change n ≤ c.usedSize at hn
  rcases Nat.lt_or_ge n c.usedSize with hlt | hge
  · cases rest with
    | nil => exact ⟨_, if_pos hlt, by simp [stream, Chunk.pending_remove], by simp⟩
    | cons d ds =>
      refine ⟨_, if_pos hlt, ?_, fun h => absurd h (by simp [getUsedSize]; omega)⟩
      simp [stream, Chunk.pending_remove, List.drop_append_of_le_length (by omega : n ≤ c.pending.length)]
  · have heq : c.usedSize = n := by omega
    cases rest with
    | nil =>
      refine ⟨_, (if_neg (show ¬ c.usedSize > n by omega)).trans (if_pos heq), ?_, by simp⟩
      simp [stream, List.drop_eq_nil_of_le (by omega : c.pending.length ≤ n)]
    | cons d ds =>
      refine ⟨_, (if_neg (show ¬ c.usedSize > n by omega)).trans (if_pos heq), ?_, fun _ _ => rfl⟩
      simp [stream, List.drop_left' (hlen.trans heq)]

theorem remove_within_head_sample :
    Chunk.Valid ⟨[1, 2, 3], 3, 0, 3⟩ ∧
      3 ≤ (⟨[⟨[1, 2, 3], 3, 0, 3⟩, ⟨[4, 5], 2, 0, 2⟩], List.cons_ne_nil _ _⟩ : Buffer).getUsedSize ∧
      ∃ b', remove ⟨[⟨[1, 2, 3], 3, 0, 3⟩, ⟨[4, 5], 2, 0, 2⟩], List.cons_ne_nil _ _⟩ 3 = some b' ∧
        b'.stream = (⟨[⟨[1, 2, 3], 3, 0, 3⟩, ⟨[4, 5], 2, 0, 2⟩], List.cons_ne_nil _ _⟩ : Buffer).stream.drop 3 ∧
        (3 = (⟨[⟨[1, 2, 3], 3, 0, 3⟩, ⟨[4, 5], 2, 0, 2⟩], List.cons_ne_nil _ _⟩ : Buffer).getUsedSize →
          1 < (⟨[⟨[1, 2, 3], 3, 0, 3⟩, ⟨[4, 5], 2, 0, 2⟩], List.cons_ne_nil _ _⟩ : Buffer).chunks.length →
          b'.chunks = (⟨[⟨[1, 2, 3], 3, 0, 3⟩, ⟨[4, 5], 2, 0, 2⟩], List.cons_ne_nil _ _⟩ : Buffer).chunks.tail) :=
  ⟨by decide, by decide, remove_within_head _ 3 (by decide) (by decide)⟩

theorem remove_compares_whole_len :
    (⟨[⟨[1, 2, 3], 3, 0, 3⟩, ⟨[4, 5, 6, 7, 8], 5, 0, 5⟩], List.cons_ne_nil _ _⟩ : Buffer).stream.drop 5 =
        [6, 7, 8] ∧
      (remove ⟨[⟨[1, 2, 3], 3, 0, 3⟩, ⟨[4, 5, 6, 7, 8], 5, 0, 5⟩], List.cons_ne_nil _ _⟩ 5).map stream =
        some [] ∧
      remove ⟨[⟨[1, 2, 3], 3, 0, 3⟩, ⟨[4, 5, 6], 3, 0, 3⟩], List.cons_ne_nil _ _⟩ 5 = none := by
  decide

end Buffer
end MasterBuffer
