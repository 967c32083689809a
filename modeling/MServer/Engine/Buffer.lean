import Mathlib

namespace EngineBuffer

def MAX_CTX : Nat := 8192

structure Chunk where
  ctx : List UInt8
  usedPos : Nat
  freePos : Nat
  ctx_length : ctx.length = MAX_CTX
  deriving DecidableEq

def writeAt (l : List UInt8) (i : Nat) (data : List UInt8) : List UInt8 :=
  l.take i ++ (data ++ l.drop (i + data.length)).take (l.length - i)

theorem length_writeAt (l : List UInt8) (i : Nat) (data : List UInt8) :
    (writeAt l i data).length = l.length := by
  simp only [writeAt, List.length_append, List.length_take, List.length_drop]; omega

namespace Chunk

def new : Chunk := ⟨List.replicate MAX_CTX 0, 0, 0, List.length_replicate _ _⟩

def delUsed (c : Chunk) (len : Nat) : Chunk := { c with usedPos := c.usedPos + len }

def clear (c : Chunk) : Chunk := { c with usedPos := 0, freePos := 0 }

def usedSize (c : Chunk) : Nat := c.freePos - c.usedPos

def spaceSize (c : Chunk) : Nat := MAX_CTX - c.freePos

def pending (c : Chunk) : List UInt8 := (c.ctx.drop c.usedPos).take c.usedSize

def writeFree (c : Chunk) (data : List UInt8) : Chunk :=
  { c with ctx := writeAt c.ctx c.freePos data, ctx_length := by rw [length_writeAt, c.ctx_length] }

def addUsed (c : Chunk) (len : Nat) : Option Chunk :=
  if c.freePos + len ≤ MAX_CTX then some { c with freePos := c.freePos + len } else none

@[simp] theorem usedSize_new : new.usedSize = 0 := rfl
@[simp] theorem spaceSize_new : new.spaceSize = MAX_CTX := rfl
@[simp] theorem usedPos_new : new.usedPos = 0 := rfl
@[simp] theorem freePos_new : new.freePos = 0 := rfl

theorem pending_eq_nil {c : Chunk} (h : c.usedSize = 0) : c.pending = [] := by
  simp [pending, h]

@[simp] theorem pending_new : new.pending = [] := pending_eq_nil rfl

@[simp] theorem pending_clear (c : Chunk) : c.clear.pending = [] := pending_eq_nil (by simp [clear, usedSize])

@[simp] theorem usedSize_delUsed (c : Chunk) (len : Nat) : (c.delUsed len).usedSize = c.usedSize - len := by
  simp only [delUsed, usedSize]; omega

theorem pending_delUsed (c : Chunk) (len : Nat) : (c.delUsed len).pending = c.pending.drop len := by
  show (c.ctx.drop (c.usedPos + len)).take (c.delUsed len).usedSize = _
  rw [usedSize_delUsed, pending, List.drop_take, List.drop_drop]

theorem length_pending {c : Chunk} (h : c.freePos ≤ MAX_CTX) : c.pending.length = c.usedSize := by
  simp only [pending, usedSize, List.length_take, List.length_drop, c.ctx_length]
  omega

@[simp] theorem freePos_writeFree (c : Chunk) (data : List UInt8) :
    (c.writeFree data).freePos = c.freePos := rfl

@[simp] theorem usedPos_writeFree (c : Chunk) (data : List UInt8) :
    (c.writeFree data).usedPos = c.usedPos := rfl

theorem pending_writeFree_advance (c : Chunk) (data : List UInt8) (hc : c.usedPos ≤ c.freePos)
    (hd : c.freePos + data.length ≤ MAX_CTX) :
    ({ c.writeFree data with freePos := c.freePos + data.length } : Chunk).pending = c.pending ++ data := by
  have hl := c.ctx_length
  have hpre : (c.ctx.take c.freePos).length = c.freePos := by simp; omega
  show ((writeAt c.ctx c.freePos data).drop c.usedPos).take (c.freePos + data.length - c.usedPos) =
    (c.ctx.drop c.usedPos).take (c.freePos - c.usedPos) ++ data
  rw [writeAt, List.drop_append_of_le_length (by omega), List.take_append_eq_append_take,
    List.take_of_length_le (by simp; omega), List.length_drop, hpre, List.take_take, List.drop_take,
    min_eq_left (by omega), List.take_left' (by omega)]

end Chunk

structure Buffer where
  chunks : List Chunk
  chunkSize : Nat

namespace Buffer

def stream (b : Buffer) : List UInt8 := (b.chunks.map Chunk.pending).flatten

def getUsedSize (b : Buffer) : Nat :=
  match b.chunks with
  | c :: _ => c.usedSize
  | [] => 0

def getAllUsedSize (b : Buffer) : Nat := (b.chunks.map Chunk.usedSize).sum

def checkUsedFrom (len used : Nat) : List Chunk → Bool
  | [] => decide (len ≤ used)
  | c :: cs => if used < len then checkUsedFrom len (used + c.usedSize) cs else decide (len ≤ used)

def checkUsedSize (b : Buffer) (len : Nat) : Option Bool :=
  match b.chunks with
  | [] => none
  | c :: cs => some (checkUsedFrom len c.usedSize cs)

theorem checkUsedFrom_eq (len : Nat) (cs : List Chunk) (used : Nat) :
    checkUsedFrom len used cs = decide (len ≤ used + (cs.map Chunk.usedSize).sum) := by
  induction cs generalizing used with
  | nil => simp [checkUsedFrom]
  | cons c cs ih =>
    simp only [checkUsedFrom, ih, List.map_cons, List.sum_cons]
    split <;> simp only [decide_eq_decide] <;> omega

theorem checkUsedSize_eq {b : Buffer} (h : b.chunks ≠ []) (len : Nat) :
    b.checkUsedSize len = some (decide (len ≤ b.getAllUsedSize)) := by
  obtain ⟨c, cs, hcs⟩ := List.exists_cons_of_ne_nil h
  simp [checkUsedSize, getAllUsedSize, hcs, checkUsedFrom_eq]

def getSpaceSize (b : Buffer) : Nat :=
  match b.chunks.getLast? with
  | some c => c.spaceSize
  | none => 0

def writeSpace (b : Buffer) (data : List UInt8) : Option Buffer :=
  b.chunks.getLast?.map fun back => ⟨b.chunks.dropLast ++ [back.writeFree data], b.chunkSize⟩

def addUsedOffset (b : Buffer) (len : Nat) : Option Buffer :=
  b.chunks.getLast?.bind fun back =>
    (back.addUsed len).map fun c => ⟨b.chunks.dropLast ++ [c], b.chunkSize⟩

@[simp] theorem writeSpace_concat (init : List Chunk) (back : Chunk) (n : Nat) (data : List UInt8) :
    Buffer.writeSpace ⟨init ++ [back], n⟩ data = some ⟨init ++ [back.writeFree data], n⟩ := by
  simp [writeSpace]

@[simp] theorem addUsedOffset_concat (init : List Chunk) (back : Chunk) (n len : Nat) :
    Buffer.addUsedOffset ⟨init ++ [back], n⟩ len = (back.addUsed len).map (⟨init ++ [·], n⟩) := by
  simp [addUsedOffset]

@[simp] theorem stream_concat (init : List Chunk) (back : Chunk) (n : Nat) :
    (⟨init ++ [back], n⟩ : Buffer).stream = (init.map Chunk.pending).flatten ++ back.pending := by
  simp [stream]

@[simp] theorem getSpaceSize_concat (init : List Chunk) (back : Chunk) (n : Nat) :
    (⟨init ++ [back], n⟩ : Buffer).getSpaceSize = back.spaceSize := by
  simp [getSpaceSize]

def releaseEmptyFront (b : Buffer) : Option Buffer :=
  match b.chunks with
  | front :: next :: rest =>
    if front.usedSize = 0 then
      if rest = [] ∧ 0 < b.chunkSize then some ⟨[next], b.chunkSize - 1⟩ else none
    else some b
  | _ => some b

def reserved (BUFFER_CHUNK : Nat) (b : Buffer) (len : Nat) : Option (Bool × Buffer) :=
  if len > BUFFER_CHUNK * 10 then some (false, b)
  else match b.chunks.getLast? with
    | none => some (true, ⟨[Chunk.new], b.chunkSize + 1⟩)
    | some back =>
      if back.spaceSize = 0 ∨ len > back.spaceSize then
        (releaseEmptyFront ⟨b.chunks ++ [Chunk.new], b.chunkSize + 1⟩).map (true, ·)
      else some (true, b)

structure Inv (b : Buffer) : Prop where
  chunkSize_eq : b.chunkSize = b.chunks.length
  cursors : ∀ c ∈ b.chunks, c.usedPos ≤ c.freePos ∧ c.freePos ≤ MAX_CTX
  nonempty : ∀ c ∈ b.chunks.dropLast, 0 < c.usedSize

def HeadOnly (b : Buffer) : Prop := ∀ c ∈ b.chunks.tail, c.usedPos = 0

def removeFrom : List Chunk → Nat → Nat → Buffer
  | [], n, _ => ⟨[], n⟩
  | [c], n, len => if len < c.usedSize then ⟨[c.delUsed len], n⟩ else ⟨[c.clear], n⟩
  | c :: d :: ds, n, len =>
    if len < c.usedSize then ⟨c.delUsed len :: d :: ds, n⟩
    else removeFrom (d :: ds) (n - 1) (len - c.usedSize)

def remove (b : Buffer) (len : Nat) : Buffer := removeFrom b.chunks b.chunkSize len

theorem stream_removeFrom (cs : List Chunk) (n len : Nat)
    (hcur : ∀ c ∈ cs, c.freePos ≤ MAX_CTX) :
    (removeFrom cs n len).stream = (cs.map Chunk.pending).flatten.drop len := by
  induction cs, n, len using removeFrom.induct with
  | case1 => simp [removeFrom, stream]
  | case2 c n len h => simp [removeFrom, stream, h, Chunk.pending_delUsed]
  | case3 c n len h =>
    have := Chunk.length_pending (hcur c (by simp))
    simp [removeFrom, stream, h, List.drop_eq_nil_of_le (by omega : c.pending.length ≤ len)]
  | case4 c d ds n len h =>
    have := Chunk.length_pending (hcur c (by simp))
    simp only [removeFrom, if_pos h, stream, List.map_cons, List.flatten_cons, Chunk.pending_delUsed]
    rw [List.drop_append_of_le_length (by omega)]
  | case5 c d ds n len h ih =>
    have := Chunk.length_pending (hcur c (by simp))
    rw [removeFrom, if_neg h, ih (fun x hx => hcur x (List.mem_cons_of_mem _ hx))]
    show _ = (c.pending ++ ((d :: ds).map Chunk.pending).flatten).drop len
    have hd : c.pending.drop len = [] := List.drop_eq_nil_of_le (by omega)
    rw [List.drop_append_eq_append_drop, hd, List.nil_append, this]

theorem inv_removeFrom (cs : List Chunk) (n len : Nat) (hn : n = cs.length)
    (hcur : ∀ c ∈ cs, c.usedPos ≤ c.freePos ∧ c.freePos ≤ MAX_CTX)
    (hne : ∀ c ∈ cs.dropLast, 0 < c.usedSize) : Inv (removeFrom cs n len) := by
  induction cs, n, len using removeFrom.induct with
  | case1 => exact ⟨hn, by simp [removeFrom], by simp [removeFrom]⟩
  | case2 c n len h =>
    simp only [removeFrom, if_pos h]
    refine ⟨hn, fun x hx => ?_, by simp⟩
    simp only [List.mem_singleton] at hx; subst hx
    have := hcur c (by simp); simp only [Chunk.delUsed, Chunk.usedSize] at h ⊢; omega
  | case3 c n len h =>
    simp only [removeFrom, if_neg h]
    refine ⟨hn, fun x hx => ?_, by simp⟩
    simp only [List.mem_singleton] at hx; subst hx; simp [Chunk.clear]
  | case4 c d ds n len h =>
    simp only [removeFrom, if_pos h]
    refine ⟨by simpa using hn, fun x hx => ?_, fun x hx => ?_⟩
    · rcases List.mem_cons.1 hx with rfl | hx
      · have := hcur c (by simp); simp only [Chunk.delUsed, Chunk.usedSize] at h ⊢; omega
      · exact hcur x (List.mem_cons_of_mem _ hx)
    · rw [List.dropLast_cons₂] at hx
      rcases List.mem_cons.1 hx with rfl | hx
      · simp only [Chunk.usedSize_delUsed]; omega
      · exact hne x (by rw [List.dropLast_cons₂]; exact List.mem_cons_of_mem _ hx)
  | case5 c d ds n len h ih =>
    rw [removeFrom, if_neg h]
    exact ih (by simp at hn ⊢; omega) (fun x hx => hcur x (List.mem_cons_of_mem _ hx))
      (fun x hx => hne x (by rw [List.dropLast_cons₂]; exact List.mem_cons_of_mem _ hx))

theorem Inv.remove {b : Buffer} (hb : Inv b) (len : Nat) : Inv (b.remove len) :=
  inv_removeFrom _ _ _ hb.chunkSize_eq hb.cursors hb.nonempty

theorem Inv.stream_remove {b : Buffer} (hb : Inv b) (len : Nat) :
    (b.remove len).stream = b.stream.drop len :=
  stream_removeFrom _ _ _ fun c hc => (hb.cursors c hc).2

theorem Inv.getUsedSize_eq_zero {b : Buffer} (hb : Inv b) :
    b.getUsedSize = 0 ↔ b.getAllUsedSize = 0 := by
  rcases hcs : b.chunks with _ | ⟨c, _ | ⟨d, ds⟩⟩
  · simp [getUsedSize, getAllUsedSize, hcs]
  · simp [getUsedSize, getAllUsedSize, hcs]
  · have := hb.nonempty c (by rw [hcs, List.dropLast_cons₂]; exact List.mem_cons_self _ _)
    simp only [getUsedSize, getAllUsedSize, hcs, List.map_cons, List.sum_cons]
    omega

theorem releaseEmptyFront_push {cs : List Chunk} {n : Nat} {b' : Buffer} (hcs : cs ≠ [])
    (h : releaseEmptyFront ⟨cs ++ [Chunk.new], n⟩ = some b') :
    (∃ front, cs = [front] ∧ front.usedSize = 0 ∧ 0 < n ∧ b' = ⟨[Chunk.new], n - 1⟩) ∨
      (∃ front rest, cs = front :: rest ∧ front.usedSize ≠ 0 ∧ b' = ⟨cs ++ [Chunk.new], n⟩) := by
  obtain ⟨front, rest, rfl⟩ := List.exists_cons_of_ne_nil hcs
  cases rest with
  | nil =>
    simp only [releaseEmptyFront, List.cons_append, List.nil_append, true_and] at h
    split at h
    · split at h
      · cases h; exact .inl ⟨front, rfl, ‹_›, ‹_›, rfl⟩
      · cases h
    · cases h; exact .inr ⟨front, [], rfl, ‹_›, rfl⟩
  | cons r rs =>
    simp only [releaseEmptyFront, List.cons_append] at h
    split at h
    · simp at h
    · cases h; exact .inr ⟨front, r :: rs, rfl, ‹_›, rfl⟩

@[simp] theorem stream_push_new (cs : List Chunk) (n : Nat) :
    (⟨cs ++ [Chunk.new], n⟩ : Buffer).stream = (cs.map Chunk.pending).flatten := by
  simp [stream, Chunk.pending_eq_nil]

@[simp] theorem getSpaceSize_push_new (cs : List Chunk) (n : Nat) :
    (⟨cs ++ [Chunk.new], n⟩ : Buffer).getSpaceSize = MAX_CTX := by
  simp [getSpaceSize]

theorem Inv.push_new {b : Buffer} (hb : Inv b) (hlast : ∀ c ∈ b.chunks, 0 < c.usedSize) :
    Inv ⟨b.chunks ++ [Chunk.new], b.chunkSize + 1⟩ where
  chunkSize_eq := by simp [hb.chunkSize_eq]
  cursors c hc := by
    rcases List.mem_append.1 hc with hc | hc
    · exact hb.cursors c hc
    · simp only [List.mem_singleton] at hc; subst hc; simp
  nonempty c hc := hlast c (by simpa using hc)

theorem inv_single_new (n : Nat) (hn : n = 1) : Inv ⟨[Chunk.new], n⟩ where
  chunkSize_eq := hn
  cursors c hc := by simp only [List.mem_singleton] at hc; subst hc; simp
  nonempty c hc := by simp at hc

theorem releaseEmptyFront_nonempty {front : Chunk} (hf : 0 < front.usedSize) (rest : List Chunk)
    (n : Nat) : releaseEmptyFront ⟨front :: rest, n⟩ = some ⟨front :: rest, n⟩ := by
  cases rest <;> simp [releaseEmptyFront, Nat.pos_iff_ne_zero.1 hf]

theorem Inv.releaseEmptyFront_push {b : Buffer} (hb : Inv b) :
    ∃ b', releaseEmptyFront ⟨b.chunks ++ [Chunk.new], b.chunkSize + 1⟩ = some b' := by
  rcases hcs : b.chunks with _ | ⟨c, _ | ⟨d, ds⟩⟩
  · exact ⟨_, rfl⟩
  · by_cases h0 : c.usedSize = 0
    · exact ⟨⟨[Chunk.new], b.chunkSize⟩, by simp [releaseEmptyFront, h0]⟩
    · exact ⟨_, releaseEmptyFront_nonempty (Nat.pos_of_ne_zero h0) _ _⟩
  · have hc := hb.nonempty c (by rw [hcs, List.dropLast_cons₂]; exact List.mem_cons_self _ _)
    exact ⟨_, releaseEmptyFront_nonempty hc _ _⟩

theorem Inv.reserved_ready (B : Nat) {b : Buffer} (hb : Inv b) :
    ∃ init back, reserved B b 0 = some (true, ⟨init ++ [back], init.length + 1⟩) ∧
      (init.map Chunk.pending).flatten ++ back.pending = b.stream ∧
      back.usedPos ≤ back.freePos ∧ 0 < back.spaceSize := by
  obtain ⟨cs, n⟩ := b
  obtain ⟨hn, hcur, hne⟩ := hb
  simp only at hn hcur hne
  subst hn
  rcases List.eq_nil_or_concat cs with rfl | ⟨init, back, rfl⟩
  · exact ⟨[], Chunk.new, by simp [reserved], by simp [stream], by simp, by decide⟩
  rw [List.concat_eq_append] at hcur hne ⊢
  have hback := hcur back (by simp)
  rw [reserved, if_neg (by omega), List.getLast?_concat]
  dsimp only
  by_cases hs : back.spaceSize = 0
  · rw [if_pos (Or.inl hs)]
    rcases init with _ | ⟨i, is⟩
    · by_cases h0 : back.usedSize = 0
      · exact ⟨[], Chunk.new, by simp [releaseEmptyFront, h0], by simp [stream, Chunk.pending_eq_nil h0],
          by simp, by decide⟩
      · exact ⟨[back], Chunk.new, by simp [releaseEmptyFront, h0], by simp [stream], by simp, by decide⟩
    · have hi : 0 < i.usedSize := hne i (by rw [List.dropLast_concat]; exact List.mem_cons_self _ _)
      refine ⟨i :: is ++ [back], Chunk.new, ?_, by simp [stream], by simp, by decide⟩
      rw [List.cons_append, List.cons_append, releaseEmptyFront_nonempty hi]
      simp
  · exact ⟨init, back, by simp [hs], by simp, hback.1, Nat.pos_of_ne_zero hs⟩

def getUsedCtx (b : Buffer) : List UInt8 :=
  match b.chunks with
  | c :: _ => c.pending
  | [] => []

theorem Inv.take_getUsedCtx {b : Buffer} (hb : Inv b) {len : Nat} (hl : len ≤ b.getUsedSize) :
    b.getUsedCtx.take len = b.stream.take len := by
  rcases hcs : b.chunks with _ | ⟨c, cs⟩
  · simp [getUsedCtx, stream, hcs]
  have hlen := Chunk.length_pending (hb.cursors c (by simp [hcs])).2
  simp only [getUsedSize, hcs] at hl
  simp [getUsedCtx, stream, hcs, List.take_append_of_le_length (hlen ▸ hl)]

theorem headOnly_removeFrom (cs : List Chunk) (n len : Nat) (h : ∀ c ∈ cs.tail, c.usedPos = 0) :
    HeadOnly (removeFrom cs n len) := by
  induction cs, n, len using removeFrom.induct with
  | case1 => simp [HeadOnly, removeFrom]
  | case2 c n len hl => simp [HeadOnly, removeFrom, hl]
  | case3 c n len hl => simp [HeadOnly, removeFrom, hl]
  | case4 c d ds n len hl => simpa [HeadOnly, removeFrom, hl] using h
  | case5 c d ds n len hl ih =>
    rw [removeFrom, if_neg hl]
    exact ih fun x hx => h x (List.mem_cons_of_mem _ hx)

theorem HeadOnly.remove {b : Buffer} (ha : HeadOnly b) (len : Nat) : HeadOnly (b.remove len) :=
  headOnly_removeFrom _ _ _ ha

theorem HeadOnly.push_new {b : Buffer} (ha : HeadOnly b) (hne : b.chunks ≠ []) (n : Nat) :
    HeadOnly ⟨b.chunks ++ [Chunk.new], n⟩ := fun c hc => by
  rw [List.tail_append_of_ne_nil hne, List.mem_append, List.mem_singleton] at hc
  rcases hc with hc | rfl
  · exact ha c hc
  · rfl

theorem HeadOnly.setLast {init : List Chunk} {back c : Chunk} {n : Nat} (ha : HeadOnly ⟨init ++ [back], n⟩)
    (hc : c.usedPos = back.usedPos) (n' : Nat) : HeadOnly ⟨init ++ [c], n'⟩ := fun x hx => by
  rcases init with _ | ⟨i, is⟩
  · cases hx
  · simp only [HeadOnly, List.cons_append, List.tail_cons, List.mem_append, List.mem_singleton] at ha hx
    rcases hx with hx | rfl
    · exact ha x (.inl hx)
    · exact hc.trans (ha back (.inr rfl))

theorem Inv.setLast {init : List Chunk} {back c : Chunk} {n : Nat} (hb : Inv ⟨init ++ [back], n⟩)
    (hc : c.usedPos ≤ c.freePos ∧ c.freePos ≤ MAX_CTX) : Inv ⟨init ++ [c], n⟩ where
  chunkSize_eq := by simpa using hb.chunkSize_eq
  cursors x hx := by
    rcases List.mem_append.1 hx with hx | hx
    · exact hb.cursors x (List.mem_append_left _ hx)
    · rw [List.mem_singleton.1 hx]; exact hc
  nonempty x hx := hb.nonempty x (by simpa using hx)

theorem usedSize_pos_of_full {b : Buffer} (hb : Inv b) (ha : HeadOnly b) {init : List Chunk} {back : Chunk}
    (hcs : b.chunks = init ++ [back]) (hs : back.spaceSize = 0) (hd : init ≠ [] ∨ back.usedSize ≠ 0) :
    ∀ c ∈ b.chunks, 0 < c.usedSize := by
  intro c hc
  rw [hcs, List.mem_append, List.mem_singleton] at hc
  rcases hc with hc | rfl
  · exact hb.nonempty c (by rw [hcs, List.dropLast_concat]; exact hc)
  rcases hd with hd | hd
  · obtain ⟨i, is, rfl⟩ := List.exists_cons_of_ne_nil hd
    have h0 := ha c (by simp [hcs])
    have hcur := hb.cursors c (by simp [hcs])
    simp only [Chunk.usedSize, Chunk.spaceSize, MAX_CTX] at hs hcur ⊢
    omega
  · exact Nat.pos_of_ne_zero hd

theorem Inv.reserved_zero (B : Nat) {b : Buffer} (hb : Inv b) (ha : HeadOnly b) :
    ∃ b1, reserved B b 0 = some (true, b1) ∧ Inv b1 ∧ HeadOnly b1 ∧ b1.stream = b.stream ∧
      0 < b1.getSpaceSize := by
  rcases hlast : b.chunks.getLast? with _ | back
  · have hnil := List.getLast?_eq_none_iff.1 hlast
    have hsize : b.chunkSize + 1 = 1 := by rw [hb.chunkSize_eq, hnil]; rfl
    exact ⟨_, by simp [reserved, hlast], inv_single_new _ hsize, by simp [HeadOnly],
      by simp [stream, hnil], show 0 < MAX_CTX by decide⟩
  by_cases hs : back.spaceSize = 0
  · obtain ⟨init, hcs⟩ := List.getLast?_eq_some_iff.1 hlast
    have hres :
        reserved B b 0 = (releaseEmptyFront ⟨b.chunks ++ [Chunk.new], b.chunkSize + 1⟩).map (true, ·) := by
      simp [reserved, hlast, hs]
    by_cases hd : init = [] ∧ back.usedSize = 0
    · obtain ⟨rfl, h0⟩ := hd
      have hsize : b.chunkSize + 1 - 1 = 1 := by rw [hb.chunkSize_eq, hcs]; rfl
      refine ⟨⟨[Chunk.new], b.chunkSize + 1 - 1⟩, ?_, inv_single_new _ hsize, by simp [HeadOnly],
        by simp [stream, hcs, Chunk.pending_eq_nil h0], show 0 < MAX_CTX by decide⟩
      rw [hres, hcs]
      simp [releaseEmptyFront, h0]
    · have hall := usedSize_pos_of_full hb ha hcs hs (by tauto)
      obtain ⟨front, rest, hfr⟩ := List.exists_cons_of_ne_nil (by simp [hcs] : b.chunks ≠ [])
      refine ⟨⟨b.chunks ++ [Chunk.new], b.chunkSize + 1⟩, ?_, hb.push_new hall,
        ha.push_new (by simp [hcs]) _, by simp [stream], by simp [MAX_CTX]⟩
      rw [hres, hfr, List.cons_append, releaseEmptyFront_nonempty (hall front (by simp [hfr]))]
      rfl
  · exact ⟨b, by simp [reserved, hlast, hs], hb, ha, rfl,
      by simpa [getSpaceSize, hlast] using Nat.pos_of_ne_zero hs⟩

def Full (b : Buffer) : Prop := ∀ c ∈ b.chunks.dropLast, c.freePos = MAX_CTX

theorem full_removeFrom (cs : List Chunk) (n len : Nat) (h : ∀ c ∈ cs.dropLast, c.freePos = MAX_CTX) :
    Full (removeFrom cs n len) := by
  induction cs, n, len using removeFrom.induct with
  | case1 => simp [Full, removeFrom]
  | case2 c n len hl => simp [Full, removeFrom, hl]
  | case3 c n len hl => simp [Full, removeFrom, hl]
  | case4 c d ds n len hl => simpa [Full, removeFrom, hl, Chunk.delUsed] using h
  | case5 c d ds n len hl ih =>
    rw [removeFrom, if_neg hl]
    exact ih fun x hx => h x (by rw [List.dropLast_cons₂]; exact List.mem_cons_of_mem _ hx)

theorem Full.remove {b : Buffer} (hf : Full b) (len : Nat) : Full (b.remove len) :=
  full_removeFrom _ _ _ hf

theorem Full.reserved_zero (B : Nat) {b b1 : Buffer} {ok : Bool} (hb : Inv b) (hf : Full b)
    (h : reserved B b 0 = some (ok, b1)) : Full b1 := by
  have h0 : ¬0 > B * 10 := Nat.not_lt_zero _
  rcases hlast : b.chunks.getLast? with _ | back
  · simp only [reserved, if_neg h0, hlast, Option.some.injEq, Prod.mk.injEq] at h
    rw [← h.2]
    simp [Full]
  by_cases hs : back.spaceSize = 0
  · obtain ⟨init, hcs⟩ := List.getLast?_eq_some_iff.1 hlast
    have hfull : ∀ c ∈ b.chunks, c.freePos = MAX_CTX := by
      intro c hc
      rw [hcs, List.mem_append, List.mem_singleton] at hc
      rcases hc with hc | rfl
      · exact hf c (by rw [hcs, List.dropLast_concat]; exact hc)
      · have := (hb.cursors c (by simp [hcs])).2
        simp only [Chunk.spaceSize] at hs
        omega
    simp only [reserved, if_neg h0, hlast, hs, true_or, if_true] at h
    obtain ⟨b2, hrel, heq⟩ := Option.map_eq_some'.1 h
    cases heq
    rcases releaseEmptyFront_push (by simp [hcs]) hrel with ⟨-, -, -, -, rfl⟩ | ⟨-, -, -, -, rfl⟩
    · simp [Full]
    · simpa [Full] using hfull
  · simp only [reserved, if_neg h0, hlast, hs, false_or, Nat.not_lt_zero, if_false, Option.some.injEq,
      Prod.mk.injEq] at h
    rw [← h.2]
    exact hf

theorem Full.chunks_le {b : Buffer} (ha : HeadOnly b) (hf : Full b) :
    (b.chunks.length - 2) * MAX_CTX ≤ b.getAllUsedSize := by
  rcases hcs : b.chunks with _ | ⟨c, rest⟩
  · simp
  have hmid : ∀ x ∈ rest.dropLast, x.usedSize = MAX_CTX := fun x hx => by
    have hrest : x ∈ rest := List.mem_of_mem_dropLast hx
    have hfree : x.freePos = MAX_CTX := hf x (by
      rw [hcs, List.dropLast_cons_of_ne_nil (List.ne_nil_of_mem hrest)]
      exact List.mem_cons_of_mem _ hx)
    have hused : x.usedPos = 0 := ha x (by rw [hcs, List.tail_cons]; exact hrest)
    simp [Chunk.usedSize, hfree, hused]
  have hsum : (rest.dropLast.map Chunk.usedSize).sum = rest.dropLast.length * MAX_CTX := by
    rw [List.map_congr_left hmid, List.map_const', List.sum_replicate, smul_eq_mul]
  have hle : (rest.dropLast.map Chunk.usedSize).sum ≤ (rest.map Chunk.usedSize).sum :=
    List.Sublist.sum_le_sum ((List.dropLast_sublist rest).map _) fun _ _ => Nat.zero_le _
  simp only [getAllUsedSize, hcs, List.map_cons, List.sum_cons, List.length_cons, List.length_dropLast] at hsum ⊢
  rw [show rest.length + 1 - 2 = rest.length - 1 by omega]
  omega

end Buffer
end EngineBuffer
