import Earley.Proofs.Chart.Reach
import Earley.Proofs.Parser.Bookmarks
import Earley.Proofs.Parser.Dialogue

/-!
# Sessions within reach

A parser consults its grammar to close columns, and to name the values of the start. The charts of a
session are within reach, and a column within reach is closed alike by all grammars that agree there.
So if the grammar of a parser is replaced by one that agrees with it within reach, nothing else
changes, then or later: rules out of reach have no influence on what is answered, nor on what is in
the columns.

## Main definitions

* `Parser.withGrammar`, `Dialogue.withGrammar`: the same, for another grammar
* `Parser.InReach`, `Dialogue.InReach`: all charts to go on from are within reach
* `Order`, `Reply`, `Dialogue.obey`: commands with rewinding, and what is answered
* `Parser.sight`: all that can be seen of a parser
* `Dialogue.record`: the replies to a row of orders, with what is seen after each

## Main results

* `Parser.InReach.feed_withGrammar`: a chunk has the same outcome for both grammars
* `Dialogue.InReach.obey_withGrammar`: an order has the same reply
* `Dialogue.record_start`: rules out of reach have no influence on a session
-/

namespace Earley

variable {Chunk Mark : Type} {lexer : Lexer Chunk Mark} {g g' : Grammar} {fuel : Nat}
  {chart : Chart} {b : Bookmark Mark} {p q : Parser lexer} {fed : Fed lexer} {chunk : Chunk}

namespace Parser

/-- The parser for another grammar. -/
def withGrammar (p : Parser lexer) (g' : Grammar) : Parser lexer :=
  { p with grammar := g' }

theorem forget_withGrammar (p : Parser lexer) (g' : Grammar) :
    (p.withGrammar g').forget = p.forget.withGrammar g' := by
  unfold forget withGrammar
  split <;> rfl

/-- The values of the input are those of the start. -/
theorem finish_withGrammar (hstart : g'.start = p.grammar.start) :
    (p.withGrammar g').finish = p.finish := by
  unfold finish withGrammar
  rw [hstart]

theorem refresh_withGrammar (p : Parser lexer) (hstart : g'.start = p.grammar.start) :
    (p.withGrammar g').refresh = p.refresh.withGrammar g' := by
  rw [refresh, finish_withGrammar hstart]
  rfl

/-- **A parser whose charts are within reach.** -/
structure InReach (g : Grammar) (p : Parser lexer) : Prop where
  grammar : p.grammar = g
  charts : p.Carries (Chart.InReach g)

/-! ## One chunk -/

namespace InReach

theorem forget (h : p.InReach g) : p.forget.InReach g :=
  ⟨(grammar_forget p).trans h.grammar, h.charts.forget⟩

theorem extend (h : p.InReach g) (hchart : chart.InReach g) (mark : Mark) :
    (p.extend chart mark).InReach g :=
  ⟨h.grammar, h.charts.extend hchart mark⟩

theorem unblock (h : p.InReach g) : p.unblock.InReach g :=
  ⟨h.grammar, h.charts.congr rfl rfl⟩

/-- Tokens are taken alike. -/
theorem run_withGrammar (hagrees : g.Agrees g') (h : p.InReach g) (fuel : Nat)
    (tokens : List (Token × Mark)) :
    run fuel tokens (p.withGrammar g') =
      (run fuel tokens p).map fun halt =>
        { halt with parser := halt.parser.withGrammar g' } := by
  induction tokens generalizing p with
  | nil => rfl
  | cons token rest ih =>
    have hshift : p.head.chart.shift g' fuel token.1 = p.head.chart.shift p.grammar fuel token.1 := by
      rw [h.grammar]
      exact h.charts.head.shift_eq hagrees fuel token.1
    have hhead : (p.withGrammar g').head = p.head := rfl
    have hgrammar : (p.withGrammar g').grammar = g' := rfl
    simp only [run, forget_withGrammar, hhead, hgrammar, hshift]
    cases hchart : p.head.chart.shift p.grammar fuel token.1 with
    | none => rfl
    | some chart =>
      by_cases hempty : chart.head.isEmpty = true
      · simp [hempty]
      · have hreach : chart.InReach g := h.charts.head.shift (h.grammar ▸ hchart)
        simp only [hempty]
        exact ih (h.forget.extend hreach token.2)

end InReach

end Parser

/-- What came of a chunk does not depend on the grammar but for its start. -/
theorem Halt.conclude_withGrammar (halt : Halt lexer) (hstart : g'.start = halt.parser.grammar.start)
    (chunk : Chunk) (start : Mark) (reading : Reading Mark) :
    conclude chunk start reading { halt with parser := halt.parser.withGrammar g' } =
      { conclude chunk start reading halt with
        parser := (conclude chunk start reading halt).parser.withGrammar g' } := by
  unfold conclude
  cases halt.refused with
  | some token => rfl
  | none =>
    cases reading.error with
    | some e => rfl
    | none =>
      -- only the results are read off the grammar, and these are those of the start
      let q := halt.parser.annotate reading.stand halt.parser.results
      exact Fed.ext (Parser.refresh_withGrammar q hstart) rfl

namespace Parser

namespace InReach

/-- **A chunk has the same outcome** for grammars that agree within reach. -/
theorem feed_withGrammar (hagrees : g.Agrees g') (h : p.InReach g) (fuel : Nat) (chunk : Chunk) :
    (p.withGrammar g').feed fuel chunk =
      (p.feed fuel chunk).map fun fed => { fed with parser := fed.parser.withGrammar g' } := by
  have hunblock : (p.withGrammar g').unblock = p.unblock.withGrammar g' := rfl
  have hhead : (p.withGrammar g').head = p.head := rfl
  rw [feed_eq_map, feed_eq_map, hunblock, hhead, h.unblock.run_withGrammar hagrees, Option.map_map,
    Option.map_map]
  refine Option.map_congr fun halt hhalt => ?_
  have hgrammar : halt.parser.grammar = g := (frame_run hhalt).1.trans h.grammar
  exact halt.conclude_withGrammar (by rw [hgrammar, hagrees.start]) _ _ _

theorem feed (h : p.InReach g) (hfeed : p.feed fuel chunk = some fed) : fed.parser.InReach g where
  grammar := (Step.feed hfeed).frame.1.trans h.grammar
  charts := h.charts.feed (fun _ _ _ hreach hshift => hreach.shift (h.grammar ▸ hshift)) hfeed

/-! ## Going back -/

theorem restore (h : p.InReach g) (hb : b.chart.InReach g) : (p.restore b).InReach g :=
  ⟨h.grammar, h.charts.restore (fun _ => .blank) hb⟩

theorem rewind {i : Nat} (h : p.InReach g) (hrewind : p.rewind i = .ok q) : q.InReach g :=
  ⟨(Step.rewind hrewind).frame.1.trans h.grammar,
    h.charts.rewind (fun _ => .blank) hrewind⟩

end InReach

theorem inReach_of_start {keepHistory : Bool} (h : start lexer g keepHistory fuel = some p) :
    p.InReach g :=
  ⟨(fresh_of_start h).1, carries_of_start (fun _ => Chart.inReach_initial) h⟩

/-- Before any input there is the same chart. -/
theorem start_withGrammar (hagrees : g.Agrees g') (lexer : Lexer Chunk Mark) (keepHistory : Bool)
    (fuel : Nat) :
    start lexer g' keepHistory fuel =
      (start lexer g keepHistory fuel).map fun p => p.withGrammar g' := by
  rw [start, start, Chart.initial_eq hagrees, Option.map_map]
  refine Option.map_congr fun chart _ => ?_
  have hresults : chart.results g'.start = chart.results g.start := by rw [hagrees.start]
  exact Parser.ext rfl rfl rfl rfl rfl rfl hresults

/-- Going back to a bookmark comes to the same place. -/
theorem restore_withGrammar (hstart : g'.start = p.grammar.start) (b : Bookmark Mark) :
    (p.withGrammar g').restore b = (p.restore b).withGrammar g' := by
  have hresults : b.chart.results g'.start = b.chart.results p.grammar.start := by rw [hstart]
  exact Parser.ext rfl rfl rfl rfl rfl rfl hresults

theorem rewind_withGrammar (hstart : g'.start = p.grammar.start) (i : Nat) :
    (p.withGrammar g').rewind i = (p.rewind i).map fun q => q.withGrammar g' := by
  have htable : (p.withGrammar g').table = p.table := rfl
  have hkeep : (p.withGrammar g').keepHistory = p.keepHistory := rfl
  unfold rewind
  rw [htable, hkeep]
  cases p.keepHistory with
  | false => rfl
  | true =>
    cases p.table[i]?.join with
    | none => rfl
    | some b => exact congrArg Except.ok (restore_withGrammar hstart b)

end Parser

/-! ## Sessions -/

/-- **What a session is told to do**: the commands of a dialogue, and rewinding to a column. -/
inductive Order (Chunk : Type) where
  | command (c : Command Chunk)
  | rewind (index : Nat)

/-- **What is replied.** -/
inductive Reply (Mark : Type) where
  | answer (a : Answer Mark)
  /-- The parser was rewound, or could not be. -/
  | rewound (error : Option HistoryError)

/-- **All that can be seen of a parser**: the number of the last column, the columns that are kept
with all that is in them and the marks to go on from, the results, and the values of the input. -/
structure Sight (Mark : Type) where
  current : Nat
  columns : Array (Option (Bookmark Mark))
  results : List Value
  values : List Value

/-- What can be seen of a parser. -/
def Parser.sight (p : Parser lexer) : Sight Mark where
  current := p.current
  columns := p.table
  results := p.results
  values := p.finish

theorem Parser.sight_withGrammar (hstart : g'.start = p.grammar.start) :
    (p.withGrammar g').sight = p.sight := by
  rw [sight, finish_withGrammar hstart]
  rfl

namespace Dialogue

variable {d : Dialogue lexer}

/-- **Obeys an order.** There is no outcome if closing a column takes more than `fuel` visits. -/
def obey (fuel : Nat) (d : Dialogue lexer) : Order Chunk → Option (Reply Mark × Dialogue lexer)
  | .command c => (d.perform fuel c).map fun (a, next) => (.answer a, next)
  | .rewind index =>
    match d.parser.rewind index with
    | .ok p => some (.rewound none, { d with parser := p })
    | .error e => some (.rewound (some e), d)

/-- **The replies to a row of orders**, with all that can be seen after each. -/
def record (fuel : Nat) : List (Order Chunk) → Dialogue lexer →
    Option (List (Reply Mark × Sight Mark))
  | [], _ => some []
  | order :: rest, d =>
    (d.obey fuel order).bind fun (reply, next) =>
      (record fuel rest next).map ((reply, next.parser.sight) :: ·)

/-- The dialogue with a parser for another grammar. -/
def withGrammar (d : Dialogue lexer) (g' : Grammar) : Dialogue lexer :=
  { d with parser := d.parser.withGrammar g' }

/-- **A dialogue whose charts are within reach**, those of the saved bookmarks included. -/
structure InReach (g : Grammar) (d : Dialogue lexer) : Prop where
  parser : d.parser.InReach g
  saved : ∀ b ∈ d.saved, b.chart.InReach g

namespace InReach

/-- The charts of a dialogue stay within reach. -/
theorem perform {command : Command Chunk} {a : Answer Mark} {next : Dialogue lexer}
    (h : d.InReach g) (hperform : d.perform fuel command = some (a, next)) : next.InReach g := by
  cases command with
  | feed chunk =>
    obtain ⟨fed, hfed, hnext⟩ := Option.map_eq_some_iff.mp hperform
    obtain ⟨-, rfl⟩ := Prod.mk.inj hnext
    exact ⟨h.parser.feed hfed, h.saved⟩
  | save =>
    obtain ⟨-, rfl⟩ := Prod.mk.inj (Option.some.inj hperform)
    refine ⟨h.parser, List.forall_mem_append.mpr ⟨h.saved, ?_⟩⟩
    exact List.forall_mem_singleton.mpr h.parser.charts.head
  | restore number =>
    simp only [Dialogue.perform] at hperform
    split at hperform
    · next b hb =>
      obtain ⟨-, rfl⟩ := Prod.mk.inj (Option.some.inj hperform)
      exact ⟨h.parser.restore (h.saved b (List.mem_of_getElem? hb)), h.saved⟩
    · obtain ⟨-, rfl⟩ := Prod.mk.inj (Option.some.inj hperform)
      exact h
  | finish =>
    obtain ⟨-, rfl⟩ := Prod.mk.inj (Option.some.inj hperform)
    exact h

theorem obey {order : Order Chunk} {reply : Reply Mark} {next : Dialogue lexer} (h : d.InReach g)
    (hobey : d.obey fuel order = some (reply, next)) : next.InReach g := by
  cases order with
  | command c =>
    obtain ⟨⟨a, e⟩, hperform, hnext⟩ := Option.map_eq_some_iff.mp hobey
    obtain ⟨-, rfl⟩ := Prod.mk.inj hnext
    exact h.perform hperform
  | rewind index =>
    simp only [Dialogue.obey] at hobey
    split at hobey
    · next q hrewind =>
      obtain ⟨-, rfl⟩ := Prod.mk.inj (Option.some.inj hobey)
      exact ⟨h.parser.rewind hrewind, h.saved⟩
    · obtain ⟨-, rfl⟩ := Prod.mk.inj (Option.some.inj hobey)
      exact h

theorem start_eq (hagrees : g.Agrees g') (h : d.InReach g) :
    g'.start = d.parser.grammar.start := by
  rw [h.parser.grammar, hagrees.start]

/-- A command has the same answer. -/
theorem perform_withGrammar (hagrees : g.Agrees g') (h : d.InReach g) (fuel : Nat)
    (command : Command Chunk) :
    (d.withGrammar g').perform fuel command =
      (d.perform fuel command).map fun (a, next) => (a, next.withGrammar g') := by
  have hstart := h.start_eq hagrees
  cases command with
  | feed chunk =>
    have hfeed := h.parser.feed_withGrammar hagrees fuel chunk
    simp only [Dialogue.perform, Dialogue.withGrammar, hfeed, Option.map_map]
    rfl
  | save => rfl
  | restore number =>
    have hsaved : (d.withGrammar g').saved = d.saved := rfl
    have hrestore : ∀ b, (d.withGrammar g').parser.restore b = (d.parser.restore b).withGrammar g' :=
      Parser.restore_withGrammar hstart
    simp only [Dialogue.perform, hsaved]
    cases d.saved[number]? with
    | none => rfl
    | some b =>
      simp only [hrestore]
      rfl
  | finish =>
    have hfinish : (d.withGrammar g').parser.finish = d.parser.finish :=
      Parser.finish_withGrammar hstart
    simp only [Dialogue.perform, hfinish]
    rfl

/-- **An order has the same reply** for grammars that agree within reach. -/
theorem obey_withGrammar (hagrees : g.Agrees g') (h : d.InReach g) (fuel : Nat)
    (order : Order Chunk) :
    (d.withGrammar g').obey fuel order =
      (d.obey fuel order).map fun (reply, next) => (reply, next.withGrammar g') := by
  cases order with
  | command c =>
    simp only [Dialogue.obey, h.perform_withGrammar hagrees, Option.map_map]
    rfl
  | rewind index =>
    have hrewind : (d.withGrammar g').parser.rewind index =
        (d.parser.rewind index).map fun q => q.withGrammar g' :=
      Parser.rewind_withGrammar (h.start_eq hagrees) index
    simp only [Dialogue.obey, hrewind]
    cases d.parser.rewind index with
    | error e => rfl
    | ok q => rfl

/-- A session has the same record. -/
theorem record_withGrammar (hagrees : g.Agrees g') (h : d.InReach g) (fuel : Nat)
    (orders : List (Order Chunk)) :
    (d.withGrammar g').record fuel orders = d.record fuel orders := by
  induction orders generalizing d with
  | nil => rfl
  | cons order rest ih =>
    simp only [record, h.obey_withGrammar hagrees, Option.bind_map]
    refine Option.bind_congr fun x hx => ?_
    have hnext : x.2.InReach g := h.obey hx
    have hsight : (x.2.withGrammar g').parser.sight = x.2.parser.sight :=
      Parser.sight_withGrammar (hnext.start_eq hagrees)
    simp only [Function.comp_apply, ih hnext, hsight]

end InReach

/-- **Rules out of reach have no influence.** Parsers for grammars that agree within reach look the
same when they are fresh, and give the same replies and look the same ever after, column by column
and item by item. -/
theorem record_start (hagrees : g.Agrees g') (lexer : Lexer Chunk Mark) (keepHistory : Bool)
    (bound fuel : Nat) (orders : List (Order Chunk)) :
    (Parser.start lexer g' keepHistory bound).map (fun p =>
        (p.sight, record fuel orders { parser := p })) =
      (Parser.start lexer g keepHistory bound).map fun p =>
        (p.sight, record fuel orders { parser := p }) := by
  rw [Parser.start_withGrammar hagrees, Option.map_map]
  refine Option.map_congr fun p hp => ?_
  have hreach : InReach g { parser := p } := ⟨Parser.inReach_of_start hp, by simp⟩
  have hrecord := hreach.record_withGrammar hagrees fuel orders
  have hsight := Parser.sight_withGrammar (hreach.start_eq hagrees)
  exact Prod.ext hsight hrecord

/-- One letter, or two. -/
def pruned : Grammar where
  start := "S"
  rules :=
    [{ name := "S", symbols := [.literal "a" false, .nonterminal "A"] },
     { name := "S", symbols := [.literal "a" false] },
     { name := "A", symbols := [.literal "b" false] }]

/-- The same among rules that no sentence comes to, though they come to sentences. -/
def overgrown : Grammar where
  start := "S"
  rules :=
    [{ name := "X", symbols := [.nonterminal "S", .nonterminal "X"] },
     { name := "A", symbols := [.literal "b" false] },
     { name := "S", symbols := [.literal "a" false, .nonterminal "A"] },
     { name := "X", symbols := [.literal "c" false] },
     { name := "S", symbols := [.literal "a" false] }]

theorem agrees_overgrown : pruned.Agrees overgrown where
  start := rfl
  rulesFor := by
    have hclosed : ∀ name ∈ ["S", "A"], ∀ rule ∈ pruned.rulesFor name, ∀ inner,
        .nonterminal inner ∈ rule.symbols → inner ∈ ["S", "A"] := by
      simp [Grammar.rulesFor, pruned]
    have hreach : ∀ name, pruned.Reaches name → name ∈ ["S", "A"] := by
      intro name h
      induction h with
      | start => decide
      | inner _ hrule hsymbol ih => exact hclosed _ ih _ hrule _ hsymbol
    have hsame : ∀ name ∈ ["S", "A"], overgrown.rulesFor name = pruned.rulesFor name := by
      simp [Grammar.rulesFor, pruned, overgrown]
    exact fun name h => hsame name (hreach name h)

/-- Two letters, back to the beginning, a letter that is out of reach, and back behind the first
one. -/
def detour : List (Order String) :=
  [.command (.feed "a"), .command .save, .command (.feed "b"), .rewind 0, .command (.feed "c"),
    .command (.restore 0), .command (.feed "b")]

/-- With the rules out of reach, the detour has the same replies and sights. -/
theorem record_overgrown :
    pruned.Agrees overgrown ∧ ∃ replies,
      (Parser.start characters.toLexer pruned true 9).bind (fun p =>
        record 9 detour { parser := p }) = some replies ∧
      (Parser.start characters.toLexer overgrown true 9).bind (fun p =>
        record 9 detour { parser := p }) = some replies ∧
      replies.map (fun reply => (reply.2.current, reply.2.values.length)) =
        [(1, 1), (1, 1), (2, 1), (0, 0), (0, 0), (1, 1), (2, 1)] := by
  have hrun : ((Parser.start characters.toLexer pruned true 9).bind fun p =>
      record 9 detour { parser := p }).any (fun replies =>
        replies.map (fun reply => (reply.2.current, reply.2.values.length)) ==
          [(1, 1), (1, 1), (2, 1), (0, 0), (0, 0), (1, 1), (2, 1)]) = true := by decide +kernel
  obtain ⟨replies, hreplies, hseen⟩ := (Option.any_eq_true _ _).mp hrun
  have hsame := record_start agrees_overgrown characters.toLexer true 9 9 detour
  have hbind := congrArg (fun outcome => outcome.bind Prod.snd) hsame
  simp only [Option.bind_map] at hbind
  exact ⟨agrees_overgrown, replies, hreplies, hbind.trans hreplies, eq_of_beq hseen⟩

end Dialogue

end Earley
