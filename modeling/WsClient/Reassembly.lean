import WsClient.Observation

/-!
# The reference parse

What a stream of bytes means, read in one go: its frames up to the first `CLOSE` or unknown opcode,
and what they amount to. The payloads of data frames are appended to an accumulator, which is
delivered and emptied at each data frame with `FIN`, and each `PING` is answered by a `PONG` with
its payload. Nothing here refers to buffers, reads or polls.

## Main definitions

* `Frame.interpret`, `interpret`: what frames amount to.
* `framesBeforeStop`, `referenceOutputs`: the reference parse of a stream.
* `Settled`: no frame is left to be processed.

## Main results

* `interpret_append`: frames in two groups.
* `framesBeforeStop_of_reads`: what was read frame by frame until nothing is left is the reference
  parse.
-/

namespace WsClient

/-- What one frame amounts to, with the data of the message that is not complete yet. -/
def Frame.interpret (acc : Bytes) (f : Frame) : Bytes × List Output :=
  if f.opcode.isData then
    if f.fin then ([], [.message (acc ++ f.payload) (f.opcode == .textFrame)])
    else (acc ++ f.payload, [])
  else if f.opcode = .ping then (acc, [.pong f.payload])
  else (acc, [])

/-- What a sequence of frames amounts to: the data that is left over, and the outputs. -/
def interpret (acc : Bytes) : List Frame → Bytes × List Output
  | [] => (acc, [])
  | f :: fs =>
    ((interpret (f.interpret acc).1 fs).1,
      (f.interpret acc).2 ++ (interpret (f.interpret acc).1 fs).2)

/-- The frames of a stream up to the first `CLOSE` or unknown opcode. -/
def framesBeforeStop (s : Bytes) : List Frame :=
  (frameDecoder.decode s).1.takeWhile fun f => !f.opcode.isStop

/-- The outputs of the reference parse. -/
def referenceOutputs (s : Bytes) : List Output := (interpret [] (framesBeforeStop s)).2

/-- The stream does not begin with a frame that is to be processed. -/
def Settled (s : Bytes) : Prop := ∀ f r, parseFrame s = some (f, r) → f.opcode.isStop = true

/-- The stream begins with a `CLOSE` frame or one with an unknown opcode. -/
def StopAhead (s : Bytes) : Prop := ∃ f r, parseFrame s = some (f, r) ∧ f.opcode.isStop = true

variable {s r t : Bytes} {fs gs : List Frame} {f : Frame} {acc : Bytes}

theorem interpret_append (acc : Bytes) (fs gs : List Frame) :
    interpret acc (fs ++ gs) = ((interpret (interpret acc fs).1 gs).1,
      (interpret acc fs).2 ++ (interpret (interpret acc fs).1 gs).2) := by
  induction fs generalizing acc with
  | nil => rfl
  | cons f fs ih => simp only [List.cons_append, interpret, ih, List.append_assoc]

theorem interpret_snoc (acc : Bytes) (fs : List Frame) (f : Frame) :
    interpret acc (fs ++ [f]) = ((f.interpret (interpret acc fs).1).1,
      (interpret acc fs).2 ++ (f.interpret (interpret acc fs).1).2) := by
  simp only [interpret_append, interpret, List.append_nil]

/-- Fewer frames amount to fewer outputs. -/
theorem interpret_mono (h : fs <+: gs) : (interpret acc fs).2 <+: (interpret acc gs).2 := by
  obtain ⟨l, rfl⟩ := h
  rw [interpret_append]
  exact List.prefix_append _ _

theorem Frame.interpret_of_isData (acc : Bytes) (h : f.opcode.isData = true) :
    f.interpret acc = if f.fin then ([], [.message (acc ++ f.payload) (f.opcode == .textFrame)])
      else (acc ++ f.payload, []) := if_pos h

private theorem takeWhile_append_of_forall (hns : ∀ f ∈ fs, f.opcode.isStop = false) :
    (fs ++ gs).takeWhile (fun f => !f.opcode.isStop) =
      fs ++ gs.takeWhile fun f => !f.opcode.isStop :=
  List.takeWhile_append_of_pos fun f hf => by simp [hns f hf]

/-- The frames that were read come first in the reference parse. -/
theorem prefix_framesBeforeStop (h : frameDecoder.Reads s fs r)
    (hns : ∀ f ∈ fs, f.opcode.isStop = false) : fs <+: framesBeforeStop s := by
  rw [framesBeforeStop, h.decode_eq, takeWhile_append_of_forall hns]
  exact List.prefix_append _ _

/-- Frames that were read until the stream is settled are those of the reference parse. -/
theorem framesBeforeStop_of_reads (h : frameDecoder.Reads s fs r)
    (hns : ∀ f ∈ fs, f.opcode.isStop = false) (hr : Settled r) : framesBeforeStop s = fs := by
  rw [framesBeforeStop, h.decode_eq, takeWhile_append_of_forall hns]
  cases hp : parseFrame r with
  | none =>
    rw [(Decoder.Reads.done r).decode_eq_of_none hp]
    exact List.append_nil fs
  | some q =>
    obtain ⟨f, t⟩ := q
    have hread : frameDecoder.Reads r [f] t := .frame hp (.done t)
    rw [hread.decode_eq, List.singleton_append, List.takeWhile_cons_of_neg (by simp [hr f t hp]),
      List.append_nil]

theorem StopAhead.settled (h : StopAhead s) : Settled s := by
  obtain ⟨f, r, hp, hstop⟩ := h
  intro g u hg
  obtain ⟨rfl, -⟩ := Prod.mk.inj (Option.some.inj (hp.symm.trans hg))
  exact hstop

/-- What follows a frame that stops the loop does not matter. -/
theorem StopAhead.append (h : StopAhead s) (t : Bytes) : StopAhead (s ++ t) := by
  obtain ⟨f, r, hp, hstop⟩ := h
  exact ⟨f, r ++ t, frameDecoder.stable t hp, hstop⟩

end WsClient
