import SharedStream.Session.Begin

/-! # What operations do at once

What the beginning of a call can come to.
-/
namespace SharedStream

/-- What is wrong with the cache itself. -/
def CacheError.violation? : CacheError → Option String
  | .invariantViolation text => some text
  | .sourceCreation .. | .invalidArgument .. | .interruptedWait _ | .io _ => none

/-- What the result says is wrong with the cache itself. -/
def Result.violation? : Result → Option String
  | .refused e | .read (.refused e) _ | .storeRead (.refused e) => e.violation?
  | _ => none

theorem Parting.violation_report (p : Parting) (flush : Option IoFailure) :
    (p.report (flush.map .io)).violation? = none := by
  cases p <;> cases flush <;> rfl

/-- The operation writes to the writer or flushes it: what becomes of the tally, and what the caller
is told. -/
inductive Op.Writes (writer : CallId) (t : Tally) : Op → Tally → Result → Prop
  | write (data : ByteArray) : Writes writer t (.write writer data) (t.write data).2
      (.wrote (t.write data).1 (t.write data).2.written)
  | writeAll (data : ByteArray) : Writes writer t (.writeAll writer data) (t.writeAll data).2
      (.wroteAll (t.writeAll data).1 (t.writeAll data).2.written)
  | flush : Writes writer t (.flush writer) t.flush.2 (.flushed t.flush.1)

namespace Session

/-- The session after a call was asked for: it was answered or it is in progress. -/
inductive Entry (s : Session) (id : CallId) : Op → Session → Prop
  /-- What the operation is about is not there. -/
  | missing {op : Op} (m : Missing) : Entry s id op (s.answer id (.missing m))
  | openReader {key : Key} {mode : Option LoadMode} {plan : SourcePlan} : s.held = true →
      Entry s id (.openReader key mode plan)
        (({ s with sources := s.sources.set id plan.source }).call id
          (.seekReader key (mode.getD s.registry.config.loadMode)))
  | openWriter {key : Key} {plan : SinkPlan} : s.held = true →
      Entry s id (.openWriter key plan)
        (({ s with sinks := s.sinks.set id plan.sink }).call id (.seekWriter key))
  | shutdown : s.held = true → Entry s id .shutdown (s.shutdown.answer id .done)
  | dropRegistry : s.held = true →
      Entry s id .dropRegistry (({ s with held := false }).answer id .done)
  | read {reader : CallId} {goal : Goal} {buf : ByteArray} {h : Reader} :
      s.reader? reader = some h →
      Entry s id (.read reader goal buf)
        (s.call id (.read { reader := reader, cache := h.cache, goal := goal, buf := buf }))
  | skip {reader : CallId} {len : Nat} {h : Reader} : s.reader? reader = some h →
      Entry s id (.skip reader len) (s.skip id reader h len)
  /-- Something was written to a sink, or it was flushed. -/
  | write {op : Op} {writer : CallId} {w : Writer} (t : Tally) (r : Result) :
      r.violation? = none → s.writer? writer = some w → op.Writes writer (s.tally writer w) t r →
      Entry s id op ((s.setTally writer w t).answer id r)
  | leave {reader : CallId} {parting : Parting} : (s.reader? reader).isSome = true →
      Entry s id (.part reader parting) (s.call id (.leave reader parting))
  | closeSink {writer : CallId} {parting : Parting} {w : Writer} :
      (s.reader? writer).isSome = false → s.writer? writer = some w →
      Entry s id (.part writer parting) (s.call id (.closeSink writer parting))
  /-- A source got more to give, or does not wait any more. -/
  | supply {op : Op} (source : CallId) (f : Source → Source) :
      (∀ y, (f y).closed = y.closed ∧ (f y).reads = y.reads ∧ (f y).factory = y.factory) →
      Entry s id op ((s.modifySource source f).answer id .done)
  | newStore : Entry s id .newStore
      (({ s with stores := s.stores.set (.separate id) {} }).answer id .done)
  | append {x : CallId} {data : ByteArray} : s.stores.contains (.separate x) = true →
      Entry s id (.append x data) ((s.appendTo (.separate x) data).answer id
        (.flag ((s.store (.separate x)).accepts data)))
  | finish {x : CallId} : s.stores.contains (.separate x) = true →
      Entry s id (.finish x) ((s.finishStore (.separate x)).answer id .done)
  | cancel {x : CallId} : s.stores.contains (.separate x) = true →
      Entry s id (.cancel x) ((s.cancelStore (.separate x)).answer id .done)
  | readStore {x : CallId} {request : Store.Request} : s.stores.contains (.separate x) = true →
      Entry s id (.readStore x request) (s.call id (.readStore (.separate x) request))
  | awaitStore {x : CallId} : s.stores.contains (.separate x) = true →
      Entry s id (.awaitStore x) (s.call id (.awaitStore (.separate x)))
  | load {x : CallId} {plan : SourcePlan} {n : Nat} : s.stores.contains (.separate x) = true →
      Entry s id (.load x plan n)
        (({ s with sources := s.sources.set id plan.source.build }).call id
          (.makeLoad ⟨.separate x, id, n⟩))
  /-- A factory gave no source to queue. -/
  | unsourced {x : CallId} {plan : SourcePlan} {n : Nat} (r : Result) :
      r.violation? = none → s.separate.shutDown = false →
      Entry s id (.submit x plan n)
        (({ s with sources := s.sources.set id plan.source.build }).answer id r)
  | submit {x : CallId} {plan : SourcePlan} {n : Nat} : s.separate.shutDown = false →
      s.stores.contains (.separate x) = true → s.separate.denied? plan.threaded = none →
      Entry s id (.submit x plan n)
        ((({ s with sources := s.sources.set id plan.source.build }).setPool .separate
          (s.separate.submit ⟨.separate x, id, n⟩ plan.threaded)).answer id .done)
  /-- No thread could be had for a load that was queued. -/
  | assist {x : CallId} {plan : SourcePlan} {n i : Nat} : s.separate.shutDown = false →
      s.stores.contains (.separate x) = true → s.separate.denied? plan.threaded = some i →
      Entry s id (.submit x plan n)
        ((({ s with sources := s.sources.set id plan.source.build }).setPool .separate
          (s.separate.submit ⟨.separate x, id, n⟩ plan.threaded)).call id (.assist i))
  | dequeue {x : CallId} : s.separate.shutDown = false → s.stores.contains (.separate x) = true →
      Entry s id (.dequeue x) ((s.dequeue .separate (.separate x)).answer id
        (.flag !(s.separate.queuedFor (.separate x)).isEmpty))
  | dropPool : s.separate.shutDown = false →
      Entry s id .dropPool ((s.setPool .separate s.separate.shutdown).answer id .done)

namespace Entry
variable {s t : Session} {id : CallId} {op : Op}

theorem withRegistry (h : s.held = true → s.Entry id op t) :
    s.Entry id op (s.withRegistry id t) := by
  unfold Session.withRegistry
  split
  · next held => exact h held
  · exact .missing .registry

theorem withPool (h : s.separate.shutDown = false → s.Entry id op t) :
    s.Entry id op (s.withPool id t) := by
  unfold Session.withPool
  split
  · exact .missing .pool
  · next open_ => exact h (by simpa using open_)

theorem withStore {x : CallId} {f : StoreId → Session}
    (h : s.stores.contains (.separate x) = true → s.Entry id op (f (.separate x))) :
    s.Entry id op (s.withStore id x f) := by
  unfold Session.withStore
  split
  · next present => exact h present
  · exact .missing .store

theorem withReader {r : CallId} {f : Reader → Session}
    (hf : ∀ h, s.reader? r = some h → s.Entry id op (f h)) :
    s.Entry id op (s.withReader id r f) := by
  unfold Session.withReader
  split
  · next h hr => exact hf h hr
  · exact .missing .handle

theorem withWriter {w : CallId} {f : Writer → Session}
    (hf : ∀ h, s.writer? w = some h → s.Entry id op (f h)) :
    s.Entry id op (s.withWriter id w f) := by
  unfold Session.withWriter
  split
  · next h hw => exact hf h hw
  · exact .missing .handle

theorem withSource (x : CallId) {f : Source → Source}
    (kept : ∀ y, (f y).closed = y.closed ∧ (f y).reads = y.reads ∧ (f y).factory = y.factory) :
    s.Entry id op (s.withSource id x f) := by
  unfold Session.withSource
  split
  · exact .supply x f kept
  · exact .missing .source

end Entry

theorem entry (s : Session) (id : CallId) (op : Op) : s.Entry id op (s.enter id op) := by
  cases op with
  | openReader key mode plan => exact .withRegistry .openReader
  | openWriter key plan => exact .withRegistry .openWriter
  | shutdown => exact .withRegistry .shutdown
  | dropRegistry => exact .withRegistry .dropRegistry
  | read reader goal buf => exact .withReader fun h hr => .read hr
  | skip reader len => exact .withReader fun h hr => .skip hr
  | write writer data => exact .withWriter fun w hw => .write _ _ rfl hw (.write data)
  | writeAll writer data => exact .withWriter fun w hw => .write _ _ rfl hw (.writeAll data)
  | flush writer => exact .withWriter fun w hw => .write _ _ rfl hw .flush
  | part handle parting =>
    simp only [enter]
    split
    · next reads => exact .leave reads
    · next other => exact .withWriter fun w hw => .closeSink (by simpa using other) hw
  | feed source items => exact .withSource source fun _ => ⟨rfl, rfl, rfl⟩
  | ungate source => exact .withSource source fun _ => ⟨rfl, rfl, rfl⟩
  | release source => exact .withSource source fun _ => ⟨rfl, rfl, rfl⟩
  | newStore => exact .newStore
  | append store data =>
    simp only [enter]
    refine .withStore ?_
    exact .append
  | finish store =>
    simp only [enter]
    refine .withStore ?_
    exact .finish
  | cancel store =>
    simp only [enter]
    refine .withStore ?_
    exact .cancel
  | readStore store request =>
    simp only [enter]
    refine .withStore ?_
    exact .readStore
  | awaitStore store =>
    simp only [enter]
    refine .withStore ?_
    exact .awaitStore
  | load store plan n =>
    simp only [enter]
    refine .withStore ?_
    exact .load
  | submit store plan n =>
    simp only [enter]
    refine .withStore ?_
    refine fun present => .withPool fun going => ?_
    unfold Session.submit
    cases plan.factory with
    | gives =>
      dsimp only
      split
      · next denied => exact .assist going present denied
      · next hired => exact .submit going present hired
    | fails e => exact .unsourced _ rfl going
    | panics text => exact .unsourced _ rfl going
  | dequeue store =>
    simp only [enter]
    refine .withStore ?_
    exact fun present => .withPool fun going => .dequeue going present
  | dropPool => exact .withPool .dropPool

end Session
end SharedStream
