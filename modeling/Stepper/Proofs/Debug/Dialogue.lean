/-
  A conversation with a client, from the breakpoint to the reply that ends it.

  `Hit.settle` makes the moves of a breakpoint until a prompt is with the
  client, as an evaluation does on its own (`Evaluation.settle_paused`), and
  `Hit.converse` lets the client reply to one prompt after the other.  What is
  replied are any number of `Round`s, in each of which the value of an
  expression is asked for, and a `Parting`, which ends the conversation.

  A prompt that is answered leaves nothing behind but a key that has been given
  out and a message that has been offered (`Hit.Ready.reply`), so the
  rounds are forgotten (`converse_eq`): `eval_rounds_invisible`.
-/
import Mathlib.Data.List.Forall2
import Stepper.Proofs.Debug.Evaluation
import Stepper.Proofs.Debug.Prompt
import Stepper.Proofs.Eval.Cancellation

namespace Stepper.Debug

open Stepper.Data Stepper.Eval Stepper.Syntax

/-! ## Conversing -/

namespace Hit

/-- Moves until nothing can be done without others: until the breakpoint is
    over, a prompt is with the client, or there is no client. -/
def settle (hit : Hit) (p : Pause) (d : Debugger) : Move :=
  if free : p.prompt? = none then
    match moved : p.move hit d with
    | .blocked => .goTo p d
    | .goTo q d' =>
      have := Pause.rank_lt_of_move free moved
      hit.settle q d'
    | .resume answer d' => .resume answer d'
  else .goTo p d
termination_by p.rank

/-- Makes a move and settles. -/
def proceed (hit : Hit) (p : Pause) (d : Debugger) : Move :=
  match p.move hit d with
  | .blocked => .goTo p d
  | .goTo q d' => hit.settle q d'
  | .resume answer d' => .resume answer d'

/-- The client replies to the prompt that it has. -/
def reply (hit : Hit) : Move → String → Move
  | .goTo p d, text =>
    match p.prompt? with
    | some key => hit.proceed p (d.submit key text)
    | none => .goTo p d
  | resumed, _ => resumed

/-- The client replies with one text after the other. -/
def converse (hit : Hit) (texts : List String) (d : Debugger) : Move :=
  texts.foldl hit.reply (hit.settle .arrived d)

end Hit

variable {hit : Hit} {d d' : Debugger} {p q : Pause}

theorem settle_eq_proceed (free : p.prompt? = none) : hit.settle p d = hit.proceed p d := by
  rw [Hit.settle, dif_pos free, Hit.proceed]
  split <;> rename_i moved <;> simp only [moved]

theorem settle_of_prompt? {key : Key} (asks : p.prompt? = some key) :
    hit.settle p d = .goTo p d := by
  rw [Hit.settle, dif_neg (by rw [asks]; nofun)]

theorem Goes.settle (goes : Goes hit d p q d') (free : p.prompt? = none) :
    hit.settle p d = hit.settle q d' := by
  rw [settle_eq_proceed free, Hit.proceed, goes.move]

theorem Leaves.settle {answer : Result} (leaves : Leaves hit d p answer d')
    (free : p.prompt? = none) : hit.settle p d = .resume answer d' := by
  rw [settle_eq_proceed free, Hit.proceed, leaves.move]

/-- An evaluation that stands at a breakpoint settles as the breakpoint does. -/
theorem Evaluation.settle_paused (e : Evaluation) {site : Site} {value : Value}
    {next : Result → Run Result} (stands : e.stage = .paused site value next p) (d : Debugger) :
    (e.afterMove site value next ((e.hit site value).settle p d)).map (fun (e', d') => e'.settle d') =
      some (e.settle d) := by
  induction rank : p.rank using Nat.strongRecOn generalizing p e d with
  | _ n ih =>
    obtain ⟨ticket, session, stage⟩ := e
    cases stands
    cases asks : p.prompt? with
    | some key =>
      rw [settle_of_prompt? asks]
      rfl
    | none =>
      rw [settle_eq_proceed asks, Hit.proceed]
      have free : (⟨ticket, session, .paused site value next p⟩ : Evaluation).prompt? = none := asks
      have step : (⟨ticket, session, .paused site value next p⟩ : Evaluation).step? d =
        Evaluation.afterMove ⟨ticket, session, .paused site value next p⟩ site value next
          (p.move ⟨ticket, session, site, value⟩ d) := rfl
      cases moved : p.move ⟨ticket, session, site, value⟩ d with
      | blocked => rfl
      | goTo q d' =>
        rw [moved] at step
        rw [settle_of_step? free step]
        exact ih _ (rank ▸ Pause.rank_lt_of_move asks moved)
          ⟨ticket, session, .paused site value next q⟩ rfl d' rfl
      | resume answer d' =>
        rw [moved] at step
        rw [settle_of_step? free step]
        rfl

/-! ## One prompt -/

theorem Channel.forget_submit_register {c : Channel} (sound : c.Sound) (kind : InputKind)
    (text : String) :
    ((c.register kind).submit c.nextKey text).forget c.nextKey = ⟨c.issued + 1, c.pending⟩ := by
  have others : ∀ p ∈ c.pending, p.key ≠ c.nextKey := by
    rintro p mem same
    exact sound.nextKey_notMem (same ▸ List.mem_map_of_mem mem)
  have accepted : (c.register kind).accepts c.nextKey = true := by
    rw [accepts_iff, find?_register sound.nextKey_notMem, if_pos rfl]
    exact ⟨_, rfl, rfl⟩
  have kept : c.pending.filter (·.key != c.nextKey) = c.pending :=
    List.filter_eq_self.2 fun p mem => bne_iff_ne.2 (others p mem)
  have unchanged : c.pending.map (fun p =>
      if p.key = c.nextKey then { p with reply := some (Reply.parse p.kind text) } else p) =
        c.pending :=
    (List.map_congr_left fun p mem => if_neg (others p mem)).trans (List.map_id' c.pending)
  rw [submit, if_pos accepted, forget, register, List.map_append, List.filter_append, unchanged,
    kept]
  simp

/-- The shared state after a prompt that has been answered: nothing is left of
    it but that its key was given out and the message was offered. -/
def Hit.asked (hit : Hit) (dialog : Dialog) (ask : Ask) (d : Debugger) : Debugger :=
  { d.offer dialog.client (hit.promptBody dialog ask d.channel.nextKey) with
    channel := ⟨d.channel.issued + 1, d.channel.pending⟩ }

/-- Nothing keeps the client from answering prompts. -/
structure Hit.Ready (hit : Hit) (client : Attachment) (d : Debugger) : Prop where
  sound : d.channel.Sound
  works : d.net.accepts client.connection = true
  free : d.isTripped hit.ticket = false

variable {client : Attachment} {dialog : Dialog} {shown : Option String} {ask : Ask}

theorem Hit.Ready.asked (ready : hit.Ready client d) (dialog : Dialog) (ask : Ask) :
    hit.Ready client (hit.asked dialog ask d) where
  sound := by
    refine ⟨ready.sound.nodup, fun key mem => ?_⟩
    obtain ⟨n, lt, same⟩ := ready.sound.issued key mem
    exact ⟨n, Nat.lt_succ_of_lt lt, same⟩
  works := ready.works
  free := ready.free

/-- A prompt is sent and answered. -/
theorem Hit.Ready.reply (ready : hit.Ready client d) (text : String) :
    hit.reply (hit.settle (.asking ⟨client, shown⟩ ask) d) text =
      hit.settle (.answered ⟨client, shown⟩ ask (Reply.parse ask.kind text))
        (hit.asked ⟨client, shown⟩ ask d) := by
  have sound := ready.sound
  let dialog : Dialog := ⟨client, shown⟩
  have asks : Goes hit d (.asking dialog ask) (.sending dialog ask d.channel.nextKey)
    (d.register ask.kind) := .ask
  have sends : Goes hit (d.register ask.kind) (.sending dialog ask d.channel.nextKey)
    (.awaiting dialog ask d.channel.nextKey)
    ((d.register ask.kind).offer dialog.client (hit.promptBody dialog ask d.channel.nextKey)) :=
    .send ready.works
  have replied : Debugger.reply? (((d.register ask.kind).offer dialog.client
      (hit.promptBody dialog ask d.channel.nextKey)).submit d.channel.nextKey text)
        d.channel.nextKey = some (Reply.parse ask.kind text) := by
    change (((d.channel.register ask.kind).submit d.channel.nextKey text).find?
      d.channel.nextKey).bind (·.reply) = _
    rw [Channel.find?_submit, if_pos rfl, Channel.find?_register sound.nextKey_notMem, if_pos rfl]
    rfl
  have forgets := Channel.forget_submit_register sound ask.kind text
  have taken : Debugger.forget (((d.register ask.kind).offer dialog.client
      (hit.promptBody dialog ask d.channel.nextKey)).submit d.channel.nextKey text)
        d.channel.nextKey = hit.asked dialog ask d := by
    simp only [Debugger.forget, Debugger.submit, Debugger.offer, Debugger.register, forgets]
    rfl
  have takes : Goes hit _ (.awaiting dialog ask d.channel.nextKey) _ _ := .take replied
  rw [asks.settle rfl, sends.settle rfl, settle_of_prompt? rfl]
  change hit.proceed _ _ = _
  rw [Hit.proceed, takes.move, taken]

/-! ## Rounds -/

/-- The client asks for the value of an expression. -/
structure Round where
  command : String
  expression : String
  form : Form
  asks : Reply.parse .command command = .ok (.command .eval)
  reads : Reply.parse .expression expression = .ok (.expression form)

/-- What is replied in a round. -/
def Round.texts (round : Round) : List String := [round.command, round.expression]

/-- What is shown after a round. -/
def Hit.shownAfter (hit : Hit) (round : Round) : String := shownText (hit.evaluate round.form false)

/-- The expression that a command asks for. -/
def Command.ask? : Command → Option Ask
  | .inject => some .inject
  | .eval => some .eval
  | _ => none

/-- What ends a conversation. -/
inductive Parting where
  /-- A command that needs no expression. -/
  | command (c : Command) (text : String) (single : c.ask? = none)
    (reads : Reply.parse .command text = .ok (.command c))
  | inject (opening expression : String) (form : Form)
    (asks : Reply.parse .command opening = .ok (.command .inject))
    (reads : Reply.parse .expression expression = .ok (.expression form))
  | noCommand (text : String) (error : Error) (fails : Reply.parse .command text = .error error)
  | noExpression (c : Command) (ask : Ask) (opening text : String) (error : Error)
    (needs : c.ask? = some ask) (asks : Reply.parse .command opening = .ok (.command c))
    (fails : Reply.parse .expression text = .error error)

namespace Parting

/-- What is replied. -/
def texts : Parting → List String
  | command _ text _ _ | noCommand text _ _ => [text]
  | inject opening expression _ _ _ => [opening, expression]
  | noExpression _ _ opening text _ _ _ _ => [opening, text]

/-- The prompts that are replied to. -/
def asks : Parting → List Ask
  | command .. | noCommand .. => [.command]
  | inject .. => [.command, .inject]
  | noExpression _ ask .. => [.command, ask]

/-- Whether a reply is not of the kind that was asked for. -/
def Malformed : Parting → Prop
  | command .. | inject .. => False
  | noCommand .. | noExpression .. => True

/-- What the evaluation goes on with. -/
def answer (hit : Hit) : Parting → Result
  | command .quit _ _ _ => .error .cancelled
  | command _ _ _ _ => .ok hit.value
  | inject _ _ form _ _ => hit.evaluate form false
  | noCommand _ error _ | noExpression _ _ _ _ error _ _ _ => .error error

/-- The shared state when the conversation is over. -/
def leave (hit : Hit) (d : Debugger) : Parting → Debugger
  | command .proceed _ _ _ => d.setPolicy hit.session .everything
  | command .out _ _ _ => d.setPolicy hit.session (.below hit.site.place.parent)
  | command .quit _ _ _ => d.trip hit.ticket
  | _ => d

end Parting

/-- The prompts of a conversation and what they show, starting with `shown`. -/
def Hit.prompts (hit : Hit) (last : List Ask) (shown : Option String) :
    List Round → List (Ask × Option String)
  | [] => last.map (·, shown)
  | round :: rounds =>
    (.command, shown) :: (.eval, shown) :: hit.prompts last (some (hit.shownAfter round)) rounds

/-- The shared state after some prompts that have been answered. -/
def Hit.exchange (hit : Hit) (client : Attachment) (prompts : List (Ask × Option String))
    (d : Debugger) : Debugger :=
  prompts.foldl (fun d (ask, shown) => hit.asked ⟨client, shown⟩ ask d) d

/-- A round leads back to the prompt for a command. -/
theorem reply_round (ready : hit.Ready client d) (round : Round) :
    round.texts.foldl hit.reply (hit.settle (.asking ⟨client, shown⟩ .command) d) =
      hit.settle (.asking ⟨client, some (hit.shownAfter round)⟩ .command)
        (hit.exchange client [(.command, shown), (.eval, shown)] d) := by
  obtain ⟨command, expression, form, asks, reads⟩ := round
  have ready' := ready.asked ⟨client, shown⟩ .command
  have ready'' := ready'.asked ⟨client, shown⟩ .eval
  have uncancelled : hit.evaluate form false ≠ .error .cancelled :=
    Snapshot.evaluateForm_ne_cancelled _ _ _
  rw [← ready''.free] at uncancelled
  simp only [Round.texts, List.foldl_cons, List.foldl_nil]
  rw [ready.reply, Ask.kind, asks, Goes.eval.settle rfl,
    ready'.reply, Ask.kind, reads,
    (Goes.show uncancelled).settle rfl, ready''.free]
  rfl

theorem reply_parting (ready : hit.Ready client d) (parting : Parting) :
    parting.texts.foldl hit.reply (hit.settle (.asking ⟨client, shown⟩ .command) d) =
      .resume (parting.answer hit)
        (parting.leave hit (hit.exchange client (hit.prompts parting.asks shown []) d)) := by
  have ready' := ready.asked ⟨client, shown⟩ .command
  cases parting with
  | command c text single reads =>
    simp only [Parting.texts, List.foldl_cons, List.foldl_nil]
    rw [ready.reply, Ask.kind, reads]
    cases c with
    | next => exact Leaves.next.settle rfl
    | proceed => exact Leaves.proceed.settle rfl
    | out => exact Leaves.out.settle rfl
    | quit => exact Leaves.quit.settle rfl
    | inject | eval => cases single
  | inject opening expression form asks reads =>
    simp only [Parting.texts, List.foldl_cons, List.foldl_nil]
    rw [ready.reply, Ask.kind, asks, Goes.inject.settle rfl,
      ready'.reply, Ask.kind, reads, Leaves.inject.settle rfl,
      (ready'.asked _ _).free]
    rfl
  | noCommand text error fails =>
    simp only [Parting.texts, List.foldl_cons, List.foldl_nil]
    rw [ready.reply, Ask.kind, fails, Leaves.failed.settle rfl]
    rfl
  | noExpression c ask opening text error needs asks fails =>
    simp only [Parting.texts, List.foldl_cons, List.foldl_nil]
    rw [ready.reply, Ask.kind, asks]
    cases c with
    | next | proceed | out | quit => cases needs
    | inject =>
      cases needs
      rw [Goes.inject.settle rfl, ready'.reply, Ask.kind, fails,
        Leaves.failed.settle rfl]
      rfl
    | eval =>
      cases needs
      rw [Goes.eval.settle rfl, ready'.reply, Ask.kind, fails,
        Leaves.failed.settle rfl]
      rfl

theorem reply_rounds (ready : hit.Ready client d) (rounds : List Round) (parting : Parting) :
    (rounds.flatMap Round.texts ++ parting.texts).foldl hit.reply
        (hit.settle (.asking ⟨client, shown⟩ .command) d) =
      .resume (parting.answer hit)
        (parting.leave hit (hit.exchange client (hit.prompts parting.asks shown rounds) d)) := by
  induction rounds generalizing d shown with
  | nil => exact reply_parting ready parting
  | cons round rounds ih =>
    have ready' := (ready.asked ⟨client, shown⟩ .command).asked ⟨client, shown⟩ .eval
    rw [List.flatMap_cons, List.append_assoc, List.foldl_append, reply_round ready]
    exact ih ready'

/-- A conversation, whatever rounds there are before the end. -/
theorem converse_eq (ready : hit.Ready client d) (attached : d.slot = some client)
    (stops : d.sessions.skips hit.session hit.site.place = false) (rounds : List Round)
    (parting : Parting) :
    hit.converse (rounds.flatMap Round.texts ++ parting.texts) d =
      .resume (parting.answer hit)
        (parting.leave hit (hit.exchange client (hit.prompts parting.asks none rounds) d)) := by
  rw [Hit.converse, (Goes.pass ready.free).settle rfl, (Goes.unskip stops).settle rfl,
    (Goes.find attached).settle rfl]
  exact reply_rounds ready rounds parting

/-! ## What is left of a conversation -/

/-- The message is a prompt at the breakpoint that shows a text. -/
structure Hit.Prompted (hit : Hit) (client : Attachment) (x : Delivery)
    (prompt : Ask × Option String) : Prop where
  recipient : x.recipient = client.connection
  arrives : x.failed = false
  status : Table.find? "status" x.message = some (.strings ["awaiting-input"])
  id : Table.find? "id" x.message = some (.nat client.request)
  ask : Table.find? "prompt" x.message = some (.string prompt.1.prompt)
  kind : Table.find? "input-kind" x.message = some prompt.1.kind.toJson
  value : Table.find? "value" x.message = some (.string hit.value.print)
  coordinate : Table.find? "coordinate" x.message =
    some (.array (hit.site.place.path.map fun step => .nat step.toNat))
  locals : ∃ locals, Table.find? "locals" x.message = some (.object locals) ∧
    ∀ name, Table.find? name locals =
      (lookup? name hit.site.snapshot.bindings).map fun v => .string v.print
  session : Table.find? "session" x.message = some (.string hit.session)
  result : Table.find? "eval-result" x.message = prompt.2.map .string

/-- What prompts leave behind. -/
structure Hit.Exchanged (hit : Hit) (client : Attachment) (prompts : List (Ask × Option String))
    (d d' : Debugger) : Prop where
  sessions : d'.sessions = d.sessions
  tripped : d'.tripped = d.tripped
  pending : d'.channel.pending = d.channel.pending
  offered : ∃ messages, d'.net.offered = d.net.offered ++ messages ∧
    List.Forall₂ (hit.Prompted client) messages prompts

theorem Hit.prompted (works : d.net.accepts client.connection = true) (shown : Option String)
    (ask : Ask) (key : Key) :
    hit.Prompted client
      ⟨client.connection,
        client.message ["awaiting-input"] (hit.promptBody ⟨client, shown⟩ ask key),
        !d.net.accepts client.connection⟩ (ask, shown) := by
  constructor
  case arrives => simp [works]
  case recipient => rfl
  case locals =>
    exact ⟨_, by rw [find?_message]; simp [Table.find?, find?_promptBody, Hit.localsJson],
      fun name => find?_locals name _⟩
  case result =>
    rw [find?_message]
    cases shown <;> simp [Table.find?, find?_promptBody]
  all_goals
    rw [find?_message]
    cases shown <;> simp [Table.find?, find?_promptBody, Hit.placeJson]

theorem Hit.Ready.exchanged (ready : hit.Ready client d) (prompts : List (Ask × Option String)) :
    hit.Exchanged client prompts d (hit.exchange client prompts d) := by
  induction prompts generalizing d with
  | nil => exact ⟨rfl, rfl, rfl, [], (List.append_nil _).symm, .nil⟩
  | cons prompt prompts ih =>
    obtain ⟨ask, shown⟩ := prompt
    obtain ⟨sessions, tripped, pending, messages, offered, prompted⟩ :=
      ih (ready.asked ⟨client, shown⟩ ask)
    refine ⟨sessions, tripped, pending, _ :: messages, offered.trans ?_,
      .cons (Hit.prompted ready.works shown ask d.channel.nextKey) prompted⟩
    exact List.append_assoc _ [_] messages

theorem Parting.malformed {parting : Parting} (malformed : parting.Malformed) :
    ∃ fault, parting.answer hit = .error (.malformedReply fault) := by
  cases parting with
  | command | inject => exact malformed.elim
  | noCommand text error fails =>
    obtain ⟨fault, rfl⟩ := malformedReply_of_parse fails
    exact ⟨fault, rfl⟩
  | noExpression c ask opening text error needs asks fails =>
    obtain ⟨fault, rfl⟩ := malformedReply_of_parse fails
    exact ⟨fault, rfl⟩

theorem Parting.leave_of_malformed {parting : Parting} (malformed : parting.Malformed) :
    parting.leave hit d = d := by
  cases parting with
  | command | inject => exact malformed.elim
  | noCommand | noExpression => rfl

/-- The sessions and the cancelled evaluations after a conversation do not
    depend on what was shown in it. -/
theorem Parting.leave_congr (parting : Parting) (hit : Hit) (sessions : d'.sessions = d.sessions)
    (tripped : d'.tripped = d.tripped) :
    (parting.leave hit d').sessions = (parting.leave hit d).sessions ∧
      (parting.leave hit d').tripped = (parting.leave hit d).tripped := by
  cases parting with
  | command c =>
    cases c <;>
      simp [leave, Debugger.setPolicy, Debugger.trip, sessions, tripped]
  | inject | noCommand | noExpression => exact ⟨sessions, tripped⟩

theorem Parting.channel_leave (parting : Parting) (hit : Hit) (d : Debugger) :
    (parting.leave hit d).channel = d.channel ∧ (parting.leave hit d).net = d.net := by
  cases parting with
  | command c => cases c <;> exact ⟨rfl, rfl⟩
  | inject | noCommand | noExpression => exact ⟨rfl, rfl⟩

/-- Rounds cannot be told from the outcome: with them a breakpoint ends as it
    does without, with the same sessions and the same cancelled evaluations.
    The prompts show the breakpoint as it is, alternate, and show in addition
    the result of the latest round, if there was one.  A reply of the wrong
    kind is an error and nothing else. -/
theorem eval_rounds_invisible (hit : Hit) (d : Debugger) {client : Attachment}
    (ready : hit.Ready client d) (attached : d.slot = some client)
    (stops : d.sessions.skips hit.session hit.site.place = false) (rounds : List Round)
    (parting : Parting) :
    ∃ plain after messages,
      hit.converse parting.texts d = .resume (parting.answer hit) plain ∧
      hit.converse (rounds.flatMap Round.texts ++ parting.texts) d =
        .resume (parting.answer hit) after ∧
      (after.sessions = plain.sessions ∧ plain.sessions = (parting.leave hit d).sessions) ∧
      (after.tripped = plain.tripped ∧ plain.tripped = (parting.leave hit d).tripped) ∧
      after.channel.pending = d.channel.pending ∧
      after.net.offered = d.net.offered ++ messages ∧
      List.Forall₂ (hit.Prompted client) messages (hit.prompts parting.asks none rounds) ∧
      (parting.Malformed → (∃ fault, parting.answer hit = .error (.malformedReply fault)) ∧
        after.sessions = d.sessions ∧ after.tripped = d.tripped) := by
  have plain := ready.exchanged (hit.prompts parting.asks none [])
  have exchanged := ready.exchanged (hit.prompts parting.asks none rounds)
  obtain ⟨sessions, tripped⟩ := parting.leave_congr hit plain.sessions plain.tripped
  obtain ⟨sessions', tripped'⟩ := parting.leave_congr hit exchanged.sessions exchanged.tripped
  obtain ⟨messages, offered, prompted⟩ := exchanged.offered
  obtain ⟨channel, net⟩ := parting.channel_leave hit
    (hit.exchange client (hit.prompts parting.asks none rounds) d)
  refine ⟨_, _, messages, converse_eq ready attached stops [] parting,
    converse_eq ready attached stops rounds parting, ⟨sessions'.trans sessions.symm, sessions⟩,
    ⟨tripped'.trans tripped.symm, tripped⟩, ?_, ?_, prompted, ?_⟩
  · rw [channel]
    exact exchanged.pending
  · rw [net]
    exact offered
  · intro malformed
    rw [Parting.leave_of_malformed malformed]
    exact ⟨Parting.malformed malformed, exchanged.sessions, exchanged.tripped⟩

/-- A breakpoint with a binding in sight. -/
def Hit.sample : Hit := ⟨0, "s", ⟨⟨[0, 1]⟩, [], ⟨[("x", .int 41)]⟩⟩, .int 42⟩

/-- A client has been attached. -/
def Debugger.sample : Debugger := ((Debugger.new .default).attach ⟨1, 10⟩ false).2

theorem eval_rounds_invisible_sample :
    ∃ after messages,
      Hit.sample.converse ["eval", "x", ":eval", "y", "out"] Debugger.sample =
        .resume (.ok (.int 42)) after ∧
      after.sessions.policy "s" = .below ⟨[0]⟩ ∧ after.net.offered = messages ∧
      List.Forall₂ (Hit.sample.Prompted ⟨1, 10⟩) messages
        [(.command, none), (.eval, none), (.command, some "41"), (.eval, some "41"),
          (.command, some "#error unable to resolve symbol 'y'")] := by
  have ready : Hit.sample.Ready ⟨1, 10⟩ Debugger.sample := ⟨.empty, rfl, rfl⟩
  obtain ⟨plain, after, messages, -, converse, ⟨same, sessions⟩, -, -, offered, prompted, -⟩ :=
    eval_rounds_invisible Hit.sample Debugger.sample ready rfl rfl
      [⟨"eval", "x", .symbol "x", rfl, rfl⟩, ⟨":eval", "y", .symbol "y", rfl, rfl⟩]
      (.command .out "out" rfl rfl)
  refine ⟨after, messages, converse, ?_, offered, prompted⟩
  rw [same, sessions]
  rfl

end Stepper.Debug
