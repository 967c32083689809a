import MServer.Engine.Buffer

namespace NetIo

open EngineBuffer Buffer

def send (sendBuf : Buffer) (len : Int) (isError : Bool) : Option (Int × Int × Buffer) :=
  let bytes := sendBuf.getUsedSize
  if bytes = 0 then none
  else if len > 0 then
    let sendBuf := sendBuf.remove len.toNat
    some (if sendBuf.getUsedSize = 0 then 0 else 2, len, sendBuf)
  else if len = 0 then some (-1, 0, sendBuf)
  else if isError then some (-1, 0, sendBuf)
  else some (2, 0, sendBuf)

theorem send_sent {b : Buffer} (hb : 0 < b.getUsedSize) {n : Nat} (hn : 0 < n) (isError : Bool) :
    send b n isError =
      some ((if (b.remove n).getUsedSize = 0 then 0 else 2 : Int), (n : Int), b.remove n) := by
  simp [send, Nat.pos_iff_ne_zero.1 hb, hn]

theorem send_removes_sent {b : Buffer} (hb : Inv b) (hhead : 0 < b.getUsedSize) {n : Nat} (hn : 0 < n)
    (isError : Bool) :
    ∃ (ret : Int) (b' : Buffer), send b n isError = some (ret, (n : Int), b') ∧ b' = b.remove n ∧
      b'.stream = b.stream.drop n ∧ Inv b' ∧
      (ret = 0 ↔ b'.getAllUsedSize = 0) ∧ (ret = 2 ↔ 0 < b'.getAllUsedSize) ∧
      (ret = 2 → 0 < b'.getUsedSize) := by
  have hinv := hb.remove n
  have hzero := hinv.getUsedSize_eq_zero
  refine ⟨_, _, send_sent hhead hn isError, rfl, hb.stream_remove n, hinv, ?_⟩
  by_cases hu : (b.remove n).getUsedSize = 0
  · simp [hu, hzero.1 hu]
  · have ha : (b.remove n).getAllUsedSize ≠ 0 := fun h => hu (hzero.2 h)
    simp [hu, ha, Nat.pos_iff_ne_zero]

theorem send_removes_sent_sample :
    Inv ⟨[{ Chunk.new with freePos := 10 }, { Chunk.new with freePos := 4 }], 2⟩ ∧
      0 < (⟨[{ Chunk.new with freePos := 10 }, { Chunk.new with freePos := 4 }], 2⟩ : Buffer).getUsedSize ∧
      0 < 10 ∧
      ∃ (ret : Int) (b' : Buffer), send ⟨[{ Chunk.new with freePos := 10 }, { Chunk.new with freePos := 4 }], 2⟩
          ((10 : Nat) : Int) false = some (ret, ((10 : Nat) : Int), b') ∧
        b' = (⟨[{ Chunk.new with freePos := 10 }, { Chunk.new with freePos := 4 }], 2⟩ : Buffer).remove 10 ∧
        b'.stream = (⟨[{ Chunk.new with freePos := 10 }, { Chunk.new with freePos := 4 }], 2⟩ :
          Buffer).stream.drop 10 ∧ Inv b' ∧
        (ret = 0 ↔ b'.getAllUsedSize = 0) ∧ (ret = 2 ↔ 0 < b'.getAllUsedSize) ∧
        (ret = 2 → 0 < b'.getUsedSize) := by
  have hb : Inv ⟨[{ Chunk.new with freePos := 10 }, { Chunk.new with freePos := 4 }], 2⟩ :=
    ⟨rfl, fun c hc => by rcases List.mem_pair.1 hc with rfl | rfl <;> exact ⟨by decide, by decide⟩,
      fun c hc => by simp only [List.dropLast, List.mem_singleton] at hc; subst hc; decide⟩
  have hhead : 0 < (⟨[{ Chunk.new with freePos := 10 }, { Chunk.new with freePos := 4 }], 2⟩ :
      Buffer).getUsedSize := by decide
  exact ⟨hb, hhead, by decide, send_removes_sent hb hhead (by decide) false⟩

def recv (BUFFER_CHUNK : Nat) (recvBuf : Buffer) (kernel : Nat → Int × List UInt8) (isError : Bool) :
    Option (Int × Int × Buffer) :=
  match reserved BUFFER_CHUNK recvBuf 0 with
  | none => none
  | some (false, recvBuf) => some (-1, 0, recvBuf)
  | some (true, recvBuf) =>
    let (len, data) := kernel recvBuf.getSpaceSize
    if len > 0 then do
      let recvBuf ← recvBuf.writeSpace data
      let recvBuf ← recvBuf.addUsedOffset len.toNat
      pure (0, len, recvBuf)
    else if len = 0 then some (-1, 0, recvBuf)
    else if isError then some (-1, 0, recvBuf)
    else some (1, 0, recvBuf)

theorem recv_appends_received (BUFFER_CHUNK : Nat) {b : Buffer} (hb : Inv b) :
    ∃ b1 back, reserved BUFFER_CHUNK b 0 = some (true, b1) ∧ b1.chunks.getLast? = some back ∧
      b1.getSpaceSize = back.spaceSize ∧ 1 ≤ back.spaceSize ∧ back.spaceSize ≤ MAX_CTX ∧
      ∀ (kernel : Nat → Int × List UInt8) (isError : Bool) (data : List UInt8),
        kernel b1.getSpaceSize = ((data.length : Int), data) → 0 < data.length →
        data.length ≤ b1.getSpaceSize →
        ∃ b' : Buffer, recv BUFFER_CHUNK b kernel isError = some (0, (data.length : Int), b') ∧
          b'.stream = b.stream ++ data ∧
          (∃ tail, b'.chunks.getLast? = some tail ∧ tail.freePos ≤ MAX_CTX) ∧
          b'.chunkSize = b'.chunks.length := by
  obtain ⟨init, back, hres, hstream, hcur, hspace⟩ := hb.reserved_ready BUFFER_CHUNK
  refine ⟨_, back, hres, by simp, by simp, hspace, by simp [Chunk.spaceSize],
    fun kernel isError data hk hpos hle => ?_⟩
  simp only [getSpaceSize_concat] at hk hle
  have hd : back.freePos + data.length ≤ MAX_CTX := by simp only [Chunk.spaceSize] at hle; omega
  refine ⟨⟨init ++ [{ back.writeFree data with freePos := back.freePos + data.length }], init.length + 1⟩,
    ?_, ?_, ⟨_, List.getLast?_concat .., hd⟩, by simp⟩
  · simp [recv, hres, hk, hpos, Chunk.addUsed, hd]
  · rw [stream_concat, Chunk.pending_writeFree_advance back data hcur hd, ← hstream, List.append_assoc]

theorem recv_appends_received_empty :
    Inv ⟨[], 0⟩ ∧
      ∃ b1 back, reserved 8192 ⟨[], 0⟩ 0 = some (true, b1) ∧ b1.chunks.getLast? = some back ∧
        b1.getSpaceSize = back.spaceSize ∧ 1 ≤ back.spaceSize ∧ back.spaceSize ≤ MAX_CTX ∧
        ∀ (kernel : Nat → Int × List UInt8) (isError : Bool) (data : List UInt8),
          kernel b1.getSpaceSize = ((data.length : Int), data) → 0 < data.length →
          data.length ≤ b1.getSpaceSize →
          ∃ b' : Buffer, recv 8192 ⟨[], 0⟩ kernel isError = some (0, (data.length : Int), b') ∧
            b'.stream = (⟨[], 0⟩ : Buffer).stream ++ data ∧
            (∃ tail, b'.chunks.getLast? = some tail ∧ tail.freePos ≤ MAX_CTX) ∧
            b'.chunkSize = b'.chunks.length := by
  have hb : Inv ⟨[], 0⟩ := ⟨rfl, by simp, by simp⟩
  exact ⟨hb, recv_appends_received 8192 hb⟩

theorem recv_reserved_asserts :
    (∀ c ∈ [Chunk.new, { Chunk.new with freePos := MAX_CTX }],
        c.usedPos ≤ c.freePos ∧ c.freePos ≤ MAX_CTX) ∧
      ∀ BUFFER_CHUNK kernel isError,
        recv BUFFER_CHUNK ⟨[Chunk.new, { Chunk.new with freePos := MAX_CTX }], 2⟩ kernel isError = none := by
  refine ⟨fun c hc => by rcases List.mem_pair.1 hc with rfl | rfl <;> exact ⟨by decide, by decide⟩,
    fun B kernel isError => ?_⟩
  rw [recv, reserved, if_neg (by omega)]
  rfl

end NetIo
