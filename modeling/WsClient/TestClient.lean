import WsClient.Closing
import WsClient.InputLine
import WsClient.SimpleServer

/-!
# The test client

`main` of the test client with the two objects it constructs: the input thread reads the console,
and the loop of `main` takes a line at a time with `getInputLine`, sends it with `sendText`, and
polls the connection. A line that ends the client is sent as well, and then the connection is
deleted.

`main` makes one access of `getInputLine` at a time, so that the input thread comes in between any
two of them, and one step of the connection at a time. The other side of the link is any server.

The text that the callback prints is not part of the model.

## Main definitions

* `TestClient`, `TestClient.machine`: the client and the server.
* `spoken`: the lines up to one that ends the client.
* `TestClient.Speaking`: the invariant.

## Main results

* `TestClient.refines_connectionLink`: the steps of the connections are a run of the link.
* `TestClient.step_speaking`: every step keeps the invariant.
* `TestClient.typed_lines`: what is typed at the client is delivered at the server.
-/

namespace WsClient

/-- Where `main` is. -/
inductive MainPc
  /-- In the call of `getInputLine`, or before it. -/
  | getInputLine
  | sendText (data : Bytes)
  | poll
  /-- In the call of `poll`. -/
  | polling
  | delete
  /-- In the destructor of the connection. -/
  | deleting
  | finished
  deriving DecidableEq

namespace MainPc

/-- Whether `main` lets the connection take this step. -/
def asks : MainPc → Input → Bool
  | .sendText data, .sendText str _ => str == some data
  | .poll, .poll callback timeout => callback && decide (timeout = 1)
  | .polling, i => i.isResult
  | .delete, .destroy => true
  | .deleting, .destroyLoop _ => true
  | .deleting, i => i.isResult
  | _, _ => false

/-- Where `main` goes on after a step of the connection. -/
def next (keepRunning : Bool) (stack : List Activation) : MainPc → MainPc
  | .sendText _ => .poll
  | .poll | .polling =>
    if stack = [] then if keepRunning then .getInputLine else .delete else .polling
  | .delete | .deleting => if stack = [.destroyed] then .finished else .deleting
  | .getInputLine => .getInputLine
  | .finished => .finished

/-- The line that `main` has taken and not sent. -/
def pending : MainPc → List Bytes
  | .sendText data => [data]
  | _ => []

end MainPc

/-- The client and the server: the console of the client, its `keepRunning` and where its `main` is,
and the two connections. -/
structure TestClient where
  inputLine : InputLineImpl
  keepRunning : Bool
  pc : MainPc
  link : Link Session UInt8

/-- Which of the programs takes a step: the input thread, `main` in `getInputLine`, or one of the
two connections. -/
inductive ClientInput
  | thread
  | getInputLine
  | connection (side : Side) (i : Input)

/-- The URL to which the client connects. -/
def connectString (host : Bytes) : Bytes :=
  stringFormat 512 (ascii "ws://" ++ host ++ ascii ":3009")

namespace TestClient

/-- `getInputLine` has returned a null pointer, or a line. -/
def returned (s : TestClient) : Option Bytes → TestClient
  | none => { s with pc := .poll }
  | some data =>
    { s with keepRunning := s.keepRunning && !exitWords.contains data, pc := .sendText data }

/-- What `main` does on an event of `getInputLine`. -/
def hear (s : TestClient) : InputEvent → TestClient
  | .returned r => s.returned r
  | .flagSet | .copied | .wrote _ _ | .piece _ => s

/-- What `main` does with the events of an access of `getInputLine`. -/
def resume (s : TestClient) (es : List InputEvent) : TestClient := es.foldl hear s

/-- A step of one of the programs. -/
def step (s : TestClient) : ClientInput → Option (TestClient × List ((Side × Input) × List Event))
  | .thread => some ({ s with inputLine := s.inputLine.threadStep.1 }, [])
  | .getInputLine =>
    if s.pc = .getInputLine then
      let r := s.inputLine.consumerStep
      some ({ s with inputLine := r.1 }.resume r.2, [])
    else none
  | .connection .left i =>
    if s.pc.asks i then
      (connectionLink.step s.link (.left, i)).map fun r =>
        ({ s with link := r.1, pc := s.pc.next s.keepRunning r.1.left.stack }, [((.left, i), r.2)])
    else none
  | .connection .right i =>
    (connectionLink.step s.link (.right, i)).map fun r =>
      ({ s with link := r.1 }, [((.right, i), r.2)])

/-- The machine whose events are the steps of the connections. -/
def machine : Machine TestClient ClientInput ((Side × Input) × List Event) := ⟨step⟩

/-- The objects as they are constructed. -/
def start (p p' : Platform) (host : Bytes) (useMask' : Bool) (inputBuffer resultBuffer : ℕ → UInt8)
    (stdin : List UInt8) : TestClient where
  inputLine := .create inputBuffer resultBuffer stdin
  keepRunning := true
  pc := .getInputLine
  link := handshakeLink p p' (connectString host) [] true useMask'

/-- A guard on the steps of the connections. -/
def guard (G : Side → Session → Input → List Event → Prop) (s : TestClient) (_ : ClientInput)
    (es : List ((Side × Input) × List Event)) : Prop :=
  ∀ e ∈ es, Machine.linkGuard G s.link e.1 e.2

instance {G : Side → Session → Input → List Event → Prop} [∀ side s i es, Decidable (G side s i es)]
    (s : TestClient) (p : ClientInput) (es : List ((Side × Input) × List Event)) :
    Decidable (guard G s p es) :=
  inferInstanceAs (Decidable (∀ _ ∈ _, _))

/-! ### The steps of the connections -/

variable {s t : TestClient} {i : ClientInput} {es : List ((Side × Input) × List Event)}
  {G : Side → Session → Input → List Event → Prop} {stdin : List UInt8}

/-- What `main` does with a line concerns neither the console nor the connections. -/
theorem resume_keeps (s : TestClient) (es : List InputEvent) :
    (s.resume es).inputLine = s.inputLine ∧ (s.resume es).link = s.link := by
  induction es generalizing s with
  | nil => exact ⟨rfl, rfl⟩
  | cons e es ih =>
    obtain ⟨hinput, hlink⟩ := ih (s.hear e)
    refine ⟨hinput.trans ?_, hlink.trans ?_⟩ <;> cases e with
    | returned r => cases r <;> rfl
    | _ => rfl

/-- The steps of the connections are a run of the link. -/
theorem refines_connectionLink (G : Side → Session → Input → List Event → Prop) :
    machine.Refines (guard G) connectionLink (Machine.linkGuard G) fun s l => s.link = l := by
  rintro s i t es - rfl hstep hguard
  cases i with
  | thread =>
    obtain ⟨rfl, rfl⟩ := Prod.mk.inj (Option.some.inj hstep)
    exact ⟨_, .nil, rfl⟩
  | getInputLine =>
    simp only [machine, step, Option.ite_none_right_eq_some, Option.some.injEq,
      Prod.mk.injEq] at hstep
    obtain ⟨-, rfl, rfl⟩ := hstep
    exact ⟨_, .nil, (resume_keeps _ _).2⟩
  | connection side i =>
    obtain ⟨l, es', hlink, rfl, hl⟩ : ∃ l es',
        connectionLink.step s.link (side, i) = some (l, es') ∧ es = [((side, i), es')] ∧
          t.link = l := by
      cases side with
      | left =>
        simp only [machine, step, Option.ite_none_right_eq_some, Option.map_eq_some_iff,
          Prod.mk.injEq] at hstep
        obtain ⟨-, ⟨l, es'⟩, hlink, rfl, rfl⟩ := hstep
        exact ⟨l, es', hlink, rfl, rfl⟩
      | right =>
        simp only [machine, step, Option.map_eq_some_iff, Prod.mk.injEq] at hstep
        obtain ⟨⟨l, es'⟩, hlink, rfl, rfl⟩ := hstep
        exact ⟨l, es', hlink, rfl, rfl⟩
    exact ⟨l, .single hlink (hguard _ List.mem_cons_self), hl⟩

/-! ### What `main` sends -/

/-- The lines up to the first that ends the client. -/
def spoken : List Bytes → List Bytes
  | [] => []
  | str :: strs => if exitWords.contains str then [str] else str :: spoken strs

theorem spoken_append {strs : List Bytes} (h : ∀ str ∈ strs, exitWords.contains str = false)
    (strs' : List Bytes) : spoken (strs ++ strs') = strs ++ spoken strs' := by
  induction strs with
  | nil => rfl
  | cons str strs ih =>
    have hno := h str List.mem_cons_self
    rw [List.cons_append, spoken, hno, ih fun x hx => h x (List.mem_cons_of_mem _ hx)]
    rfl

/-- A line as a message. -/
def text (str : Bytes) : Bytes × Bool := (str, true)

/-- An access of `getInputLine` tells `main` nothing, or returns. -/
theorem consumerStep_events (s : InputLineImpl) :
    s.consumerStep.2 = [] ∨ s.consumerStep.2 = [.copied] ∨
      ∃ r, s.consumerStep.2 = [.returned r] := by
  cases hpc : s.consumer with
  | idle =>
    by_cases hflag : s.mHaveNewData = true <;> simp [InputLineImpl.consumerStep, hpc, hflag]
  | copying i =>
    by_cases hchar : s.mInputBuffer i = 0 <;> simp [InputLineImpl.consumerStep, hpc, hchar]
  | _ => simp [InputLineImpl.consumerStep, hpc]

/-- The connection sends the line that `main` has taken, and nothing else. -/
theorem message_of_asks {pc : MainPc} {i : Input} (h : pc.asks i = true) (keepRunning : Bool)
    (stack : List Activation) :
    i.message?.toList ++ (pc.next keepRunning stack).pending.map text = pc.pending.map text := by
  have hresult (i : Input) (hi : i.isResult = true) : i.message? = none := by
    cases i <;> first | rfl | cases hi
  cases pc with
  | sendText data =>
    cases i with
    | sendText str key =>
      obtain rfl : str = some data := eq_of_beq h
      rfl
    | _ => cases h
  | polling =>
    rw [hresult i h]
    simp only [MainPc.next]
    split_ifs <;> rfl
  | deleting =>
    have hi : i.message? = none := by
      cases i <;> first | rfl | cases h
    rw [hi]
    simp only [MainPc.next]
    split_ifs <;> rfl
  | poll =>
    cases i with
    | poll callback timeout =>
      simp only [MainPc.next]
      split_ifs <;> rfl
    | _ => cases h
  | delete =>
    cases i with
    | destroy =>
      simp only [MainPc.next]
      split_ifs <;> rfl
    | _ => cases h
  | _ => cases i <;> cases h

/-- A client that is to end takes no more lines. -/
theorem next_ne_getInputLine {pc : MainPc} (h : pc ≠ .getInputLine) (stack : List Activation) :
    pc.next false stack ≠ .getInputLine := by
  cases pc with
  | getInputLine => exact absurd rfl h
  | poll | polling | delete | deleting =>
    simp only [MainPc.next, Bool.false_eq_true, if_false]
    split_ifs <;> simp
  | _ => simp [MainPc.next]

/-- What `main` has made of the lines `strings` that `getInputLine` has returned: it has sent them,
up to the one that it has in hand, and none of them but the last ends the client. -/
structure Speaking (stdin : List UInt8) (tr : List ((Side × Input) × List Event))
    (strings : List Bytes) (s : TestClient) : Prop where
  handoff : ∃ es acc waiting taken, Handoff stdin es s.inputLine acc waiting taken ∧
    stringsReturned es = strings
  sent : sentMessages (Machine.trace .left tr) ++ s.pc.pending.map text = strings.map text
  running : s.keepRunning = true → ∀ str ∈ strings, exitWords.contains str = false
  stopped : s.keepRunning = false → s.pc ≠ .getInputLine ∧ ∃ strs str, strings = strs ++ [str] ∧
    (∀ x ∈ strs, exitWords.contains x = false) ∧ exitWords.contains str = true

theorem speaking_start (p p' : Platform) (host : Bytes) (useMask' : Bool)
    (inputBuffer resultBuffer : ℕ → UInt8) (hnul : 0 ∉ stdin) :
    Speaking stdin [] [] (start p p' host useMask' inputBuffer resultBuffer stdin) where
  handoff := ⟨[], [], [], [], .create inputBuffer resultBuffer hnul, rfl⟩
  sent := rfl
  running := by simp
  stopped := by simp [start]

/-- The input thread takes a step. -/
theorem Speaking.thread {tr : List ((Side × Input) × List Event)} {strings : List Bytes}
    (hs : Speaking stdin tr strings s) :
    Speaking stdin tr strings { s with inputLine := s.inputLine.threadStep.1 } := by
  obtain ⟨es, acc, waiting, taken, h, rfl⟩ := hs.handoff
  obtain ⟨acc', waiting', h'⟩ := h.threadStep
  have hreturned : stringsReturned (es ++ s.inputLine.threadStep.2) = stringsReturned es := by
    have hnone : s.inputLine.threadStep.2.filterMap InputEvent.string? = [] := by
      unfold InputLineImpl.threadStep
      cases s.inputLine.thread with
      | reading n => cases s.inputLine.stdin <;> rfl
      | _ => rfl
    rw [stringsReturned, List.filterMap_append, hnone, List.append_nil]
    rfl
  exact ⟨⟨_, acc', waiting', taken, h', hreturned⟩, hs.sent, hs.running, hs.stopped⟩

/-- `main` makes an access of `getInputLine`. -/
theorem Speaking.getInputLine {tr : List ((Side × Input) × List Event)} {strings : List Bytes}
    (hs : Speaking stdin tr strings s) (hpc : s.pc = .getInputLine) :
    ∃ strings', Speaking stdin tr strings'
      ({ s with inputLine := s.inputLine.consumerStep.1 }.resume s.inputLine.consumerStep.2) := by
  obtain ⟨es, acc, waiting, taken, h, rfl⟩ := hs.handoff
  obtain ⟨waiting', taken', h'⟩ := h.consumerStep
  have hkeep : s.keepRunning = true := by
    by_contra hno
    exact (hs.stopped (by simpa using hno)).1 hpc
  have hsent := hs.sent
  rw [hpc] at hsent
  rcases consumerStep_events s.inputLine with heq | heq | ⟨r, heq⟩ <;> rw [heq] at h' ⊢
  · exact ⟨_, ⟨_, acc, waiting', taken', h', by rw [List.append_nil]⟩, hs.sent, hs.running,
      hs.stopped⟩
  · refine ⟨_, ⟨_, acc, waiting', taken', h', ?_⟩, hs.sent, hs.running, hs.stopped⟩
    rw [stringsReturned, List.filterMap_append]
    exact List.append_nil _
  · have hreturned : stringsReturned (es ++ [.returned r]) = stringsReturned es ++ r.toList := by
      cases r <;> simp [stringsReturned, InputEvent.string?]
    refine ⟨_, ⟨_, acc, waiting', taken', ?_, hreturned⟩, ?_, ?_, ?_⟩
    · rw [(resume_keeps _ _).1]
      exact h'
    · cases r with
      | none => simpa [resume, hear, returned, MainPc.pending] using hsent
      | some data => simpa [resume, hear, returned, MainPc.pending] using hsent
    · cases r with
      | none => simpa [resume, hear, returned] using hs.running
      | some data =>
        intro hstill str hstr
        simp only [resume, hear, returned, List.foldl_cons, List.foldl_nil, Bool.and_eq_true,
          Bool.not_eq_true'] at hstill
        rcases List.mem_append.mp hstr with hstr | hstr
        · exact hs.running hkeep str hstr
        · rw [List.mem_singleton.mp hstr]
          exact hstill.2
    · cases r with
      | none => simp [resume, hear, returned, hkeep]
      | some data =>
        intro hstop
        simp only [resume, hear, returned, List.foldl_cons, List.foldl_nil, hkeep, Bool.true_and,
          Bool.not_eq_false'] at hstop
        exact ⟨by simp [resume, hear, returned], _, data, rfl, hs.running hkeep, hstop⟩

/-- A connection takes a step. -/
theorem Speaking.connection {tr : List ((Side × Input) × List Event)} {strings : List Bytes}
    (hs : Speaking stdin tr strings s) {side : Side} {i : Input}
    (hstep : s.step (.connection side i) = some (t, es)) : Speaking stdin (tr ++ es) strings t := by
  cases side with
  | left =>
    simp only [step, Option.ite_none_right_eq_some, Option.map_eq_some_iff, Prod.mk.injEq] at hstep
    obtain ⟨hasks, ⟨l, es'⟩, -, rfl, rfl⟩ := hstep
    have hmessage := message_of_asks hasks s.keepRunning l.left.stack
    refine ⟨hs.handoff, ?_, hs.running, fun hstop => ⟨?_, (hs.stopped hstop).2⟩⟩
    · rw [Machine.trace_append, Machine.trace_single, sentMessages_snoc, List.append_assoc,
        hmessage, hs.sent]
    · have hnext := next_ne_getInputLine (hs.stopped hstop).1 l.left.stack
      rwa [show s.keepRunning = false from hstop]
  | right =>
    simp only [step, Option.map_eq_some_iff, Prod.mk.injEq] at hstep
    obtain ⟨⟨l, es'⟩, -, rfl, rfl⟩ := hstep
    refine ⟨hs.handoff, ?_, hs.running, hs.stopped⟩
    have hother : Machine.trace .left [((Side.right, i), es')] = [] :=
      Machine.trace_other_single .right i es'
    rw [Machine.trace_append, hother, List.append_nil]
    exact hs.sent

/-- Every step keeps the invariant. -/
theorem step_speaking {tr : List ((Side × Input) × List Event)} {strings : List Bytes}
    (hs : Speaking stdin tr strings s) (hstep : s.step i = some (t, es)) :
    ∃ strings', Speaking stdin (tr ++ es) strings' t := by
  cases i with
  | thread =>
    obtain ⟨rfl, rfl⟩ := Prod.mk.inj (Option.some.inj hstep)
    exact ⟨strings, (List.append_nil tr).symm ▸ hs.thread⟩
  | getInputLine =>
    simp only [step, Option.ite_none_right_eq_some, Option.some.injEq, Prod.mk.injEq] at hstep
    obtain ⟨hpc, rfl, rfl⟩ := hstep
    exact (List.append_nil tr).symm ▸ hs.getInputLine hpc
  | connection side i => exact ⟨strings, hs.connection hstep⟩

theorem run_speaking {p p' : Platform} {host : Bytes} {useMask' : Bool}
    {inputBuffer resultBuffer : ℕ → UInt8} (hnul : 0 ∉ stdin)
    {H : TestClient → ClientInput → List ((Side × Input) × List Event) → Prop}
    {tr : List (ClientInput × List ((Side × Input) × List Event))}
    (h : machine.Run H (start p p' host useMask' inputBuffer resultBuffer stdin) tr t) :
    ∃ strings, Speaking stdin (Machine.events tr) strings t := by
  refine h.invariant_events (P := fun es t => ∃ strings, Speaking stdin es strings t)
    ⟨[], speaking_start p p' host useMask' inputBuffer resultBuffer hnul⟩ ?_
  rintro es s i es' t ⟨strings, ih⟩ hstep -
  exact step_speaking ih hstep

/-! ### What is delivered -/

section Speaking

variable {tr : List ((Side × Input) × List Event)} {strings : List Bytes}

/-- The lines that were returned are the first that were typed. -/
theorem Speaking.exists_rest (hs : Speaking stdin tr strings s) :
    ∃ rest, (pieces stdin).map chomp = strings ++ rest := by
  obtain ⟨es, acc, waiting, taken, h, rfl⟩ := hs.handoff
  rw [h.pieces_eq, List.map_append, ← h.returned_eq, List.append_assoc, List.append_assoc]
  exact ⟨_, rfl⟩

theorem Speaking.strings_isPrefix (hs : Speaking stdin tr strings s) :
    strings <+: spoken ((pieces stdin).map chomp) := by
  obtain ⟨rest, hrest⟩ := hs.exists_rest
  rw [hrest]
  cases hkeep : s.keepRunning with
  | true =>
    rw [spoken_append (hs.running hkeep)]
    exact List.prefix_append _ _
  | false =>
    obtain ⟨-, strs, str, rfl, hno, hexit⟩ := hs.stopped hkeep
    rw [List.append_assoc, spoken_append hno, List.singleton_append, spoken, if_pos hexit]

/-- The lines have no NUL. -/
theorem Speaking.nul_notMem (hs : Speaking stdin tr strings s) (hnul : 0 ∉ stdin) {str : Bytes}
    (hstr : str ∈ strings) : 0 ∉ str := by
  obtain ⟨rest, hrest⟩ := hs.exists_rest
  obtain ⟨piece, hpiece, rfl⟩ := List.mem_map.mp (hrest ▸ List.mem_append_left rest hstr)
  refine fun hmem => hnul ?_
  have hsub : (0 : UInt8) ∈ piece := by
    unfold chomp at hmem
    split_ifs at hmem
    · exact List.mem_of_mem_dropLast hmem
    · exact hmem
  rw [← pieces_flatten stdin]
  exact List.mem_flatten_of_mem hpiece hsub

/-- The texts that `main` sends have no NUL. -/
theorem Speaking.nulFree (hs : Speaking stdin tr strings s) (hnul : 0 ∉ stdin) {i : Input}
    (hi : i ∈ (Machine.trace .left tr).map Prod.fst) : i.NulFree := by
  obtain ⟨step, hstep, rfl⟩ := List.mem_map.mp hi
  cases hinput : step.1 with
  | sendText str key =>
    cases str with
    | none => trivial
    | some str =>
      have hsent : text str ∈ sentMessages (Machine.trace .left tr) :=
        List.mem_filterMap.mpr ⟨step, hstep, by rw [hinput]; rfl⟩
      have hstring : text str ∈ strings.map text := hs.sent ▸ List.mem_append_left _ hsent
      obtain ⟨str', hstr', heq⟩ := List.mem_map.mp hstring
      exact (Prod.mk.inj heq).1 ▸ hs.nul_notMem hnul hstr'
  | _ => trivial

end Speaking

/-- From the console to the other side. Whatever is typed at the client, and however its two threads
and the server are interleaved: the messages that the server delivers are the first of the lines
typed up to one that ends the client, whole and each once, as texts. The server may send, close, be
destroyed or lose its socket meanwhile, and the client is deleted at its end. -/
theorem typed_lines {p p' : Platform} {host name : Bytes} {port : ℤ} {useMask' : Bool}
    {inputBuffer resultBuffer : ℕ → UInt8} (hnul : 0 ∉ stdin)
    (hurl : (connectString host).length < 128)
    (hparse : parseUrl (connectString host) = some (name, port, [])) (hport : port ≠ 0)
    (hname : 0x0A ∉ name ∧ 0 ∉ name)
    {tr : List (ClientInput × List ((Side × Input) × List Event))}
    (h : machine.Run (guard fun _ => Session.Orderly)
      (start p p' host useMask' inputBuffer resultBuffer stdin) tr t) :
    delivered (Machine.events (Machine.trace .right (Machine.events tr))) <+:
      (spoken ((pieces stdin).map chomp)).map text := by
  obtain ⟨l, hl, -⟩ := (refines_connectionLink fun _ => Session.Orderly).run h rfl
  obtain ⟨strings, hs⟩ := run_speaking hnul h
  have hdelivered := Session.run_delivered_issued hurl (by simp) hparse hport hname (by simp) hl
    .right
  have hissued : issuedMessages (Machine.events (Machine.trace .left (Machine.events tr))) <+:
      sentMessages (Machine.trace .left (Machine.events tr)) :=
    Session.run_issuedMessages
      (Session.constructed_party p p' (connectString host) [] true useMask' .left).consistent
      ((hl.project .left).of_inputs fun i hi => hs.nulFree hnul hi) fun _ _ _ hfree => hfree
  have hsent : sentMessages (Machine.trace .left (Machine.events tr)) <+: strings.map text :=
    ⟨_, hs.sent⟩
  exact hdelivered.trans (hissued.trans (hsent.trans (hs.strings_isPrefix.map text)))

/-- Three lines are typed, of which the second ends the client. The first is delivered after the
handshake. -/
theorem typed_lines_first :
    ∃ tr t, machine.Run (guard fun _ => Session.Orderly)
        (start Session.zeroPlatform Session.zeroPlatform (ascii "localhost") true (fun _ => 7)
          (fun _ => 7) (ascii "hi\nbye\nno\n")) tr t ∧
      delivered (Machine.events (Machine.trace .right (Machine.events tr))) = [text (ascii "hi")] ∧
      delivered (Machine.events (Machine.trace .right (Machine.events tr))) <+:
        [text (ascii "hi"), text (ascii "bye")] := by
  obtain ⟨tr, t, hrun, hP⟩ := Machine.exists_run_of_exec (M := machine)
    (G := guard fun _ => Session.Orderly)
    (s := start Session.zeroPlatform Session.zeroPlatform (ascii "localhost") true (fun _ => 7)
      (fun _ => 7) (ascii "hi\nbye\nno\n"))
    (l := List.replicate 8 .thread ++ List.replicate 10 .getInputLine ++
      [.connection .left (.sendText (some (ascii "hi")) 0)] ++
      (Session.handshakeInputs (requestLines (ascii "localhost") 3009 [] []).flatten).map
        (.connection .right) ++
      responseLines.flatten.flatMap (fun c => [.connection .left (.poll true 1),
        .connection .left (.connect false (some c)), .getInputLine]) ++
      [Input.poll true 1, .receive .wouldBlock, .send (.accepted 8), .send .wouldBlock,
        .dispatch 0].map (.connection .left) ++
      (Session.pollInputs [0x81, 0x82, 0, 0, 0, 0, 0x68, 0x69]
        [.dispatch 0, .ret, .dispatch 0]).map (.connection .right))
    (P := fun r => decide (delivered (Machine.events (Machine.trace .right
      (Machine.events r.2))) = [text (ascii "hi")])) (by decide +kernel)
  have hparse : parseUrl (connectString (ascii "localhost")) =
      some (ascii "localhost", 3009, []) := by decide +kernel
  have hspoken : (spoken ((pieces (ascii "hi\nbye\nno\n")).map chomp)).map text =
      [text (ascii "hi"), text (ascii "bye")] := by decide +kernel
  have hprefix := typed_lines (by decide) (by decide) hparse (by decide) (by decide) hrun
  rw [hspoken] at hprefix
  exact ⟨tr, t, hrun, of_decide_eq_true hP, hprefix⟩

end TestClient

end WsClient
