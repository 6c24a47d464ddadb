import Earley.Proofs.Grammar.Tree
import Mathlib.Logic.Relation

/-!
# The language of a grammar

A form is a row of symbols. A nonterminal in it may be replaced by the right side of one of its
rules, and a form derives what a number of such replacements makes of it. Tokens are a sentence if
the start derives a form of terminals that take them one by one, and they are viable if the start
derives a form that begins in this way.

Derivations in this sense take any order and may go in circles. They are related to trees: a form of
terminals that take tokens is derived exactly if there is a row of trees over these tokens, and the
trees may be chosen admissible, since a derivation without input can be replaced by one of its own
name inside it.

## Main definitions

* `Grammar.Produces`, `Grammar.Derives`: replacing one nonterminal, and any number of them
* `Grammar.Expands`: derivations from left to right, each nonterminal replaced as a whole
* `Grammar.Sentence`, `Grammar.Viable`: the tokens that the start derives, or begins to derive
* `Grammar.NeverRejects`: whether no reducer ever refuses

## Main results

* `Grammar.derives_iff_expands`: derivations can be put in order
* `Tree.Fits.exists_expands`, `Grammar.Expands.exists_trees`: trees and derivations
* `Tree.Fits.exists_admissible`: every tree has an admissible counterpart over the same tokens
* `Grammar.sentence_iff`: sentences have admissible trees
-/

namespace Earley

namespace Grammar

/-! ## Derivations -/

/-- Replaces one nonterminal of a form by the right side of one of its rules. -/
def Produces (g : Grammar) (form next : List Symbol) : Prop :=
  ∃ front name back, ∃ rule ∈ g.rulesFor name,
    form = front ++ .nonterminal name :: back ∧ next = front ++ rule.symbols ++ back

/-- **A form derives another** by any number of replacements. -/
def Derives (g : Grammar) : List Symbol → List Symbol → Prop :=
  Relation.ReflTransGen g.Produces

/-- The symbols of a form take tokens one by one. -/
def Takes (form : List Symbol) (tokens : List Token) : Prop :=
  List.Forall₂ (fun s t => s.accepts t = true) form tokens

/-- **The sentences of a grammar**: the start derives a form that takes the tokens. -/
def Sentence (g : Grammar) (tokens : List Token) : Prop :=
  ∃ form, g.Derives [.nonterminal g.start] form ∧ Takes form tokens

/-- **The beginnings that a grammar allows**: the start derives a form that takes the tokens and may
go on. -/
def Viable (g : Grammar) (tokens : List Token) : Prop :=
  ∃ form rest, g.Derives [.nonterminal g.start] (form ++ rest) ∧ Takes form tokens

/-- **No reducer ever refuses.** -/
def NeverRejects (g : Grammar) : Prop :=
  ∀ rule ∈ g.rules, ∀ vs origin, ∃ v, rule.reduce vs origin = some v

variable {g : Grammar} {form form' next next' front back : List Symbol} {name : String}
  {rule : Rule}

theorem Derives.trans (h : g.Derives form next) (h' : g.Derives next next') :
    g.Derives form next' :=
  Relation.ReflTransGen.trans h h'

theorem Derives.append (h : g.Derives form next) (front back : List Symbol) :
    g.Derives (front ++ form ++ back) (front ++ next ++ back) := by
  refine Relation.ReflTransGen.lift (fun form => front ++ form ++ back) ?_ _ _ h
  rintro form next ⟨front', name, back', rule, hrule, rfl, rfl⟩
  exact ⟨front ++ front', name, back' ++ back, rule, hrule, by simp, by simp⟩

theorem derives_rule (hrule : rule ∈ g.rulesFor name) (front back : List Symbol) :
    g.Derives (front ++ .nonterminal name :: back) (front ++ rule.symbols ++ back) :=
  .single ⟨front, name, back, rule, hrule, rfl, rfl⟩

/-! ## Derivations from left to right -/

/-- **A form expands to another**: from left to right, each symbol is kept or replaced by what the
right side of a rule expands to. -/
inductive Expands (g : Grammar) : List Symbol → List Symbol → Prop
  | nil : Expands g [] []
  | keep {s : Symbol} {form next : List Symbol} (h : Expands g form next) :
      Expands g (s :: form) (s :: next)
  | replace {name : String} {rule : Rule} {form inner next : List Symbol}
      (hrule : rule ∈ g.rulesFor name) (hinner : Expands g rule.symbols inner)
      (h : Expands g form next) : Expands g (.nonterminal name :: form) (inner ++ next)

theorem Expands.refl (form : List Symbol) : Expands g form form := by
  induction form with
  | nil => exact .nil
  | cons s form ih => exact .keep ih

/-- One more replacement at the end. -/
theorem Expands.tail (h : Expands g form next) (hrule : rule ∈ g.rulesFor name)
    (hnext : next = front ++ .nonterminal name :: back) :
    Expands g form (front ++ rule.symbols ++ back) := by
  induction h generalizing front back with
  | nil => exact absurd hnext (by simp)
  | @keep s form next h ih =>
    cases front with
    | nil =>
      -- the symbol kept so far is the one to replace
      obtain ⟨rfl, rfl⟩ := List.cons.inj hnext
      exact .replace hrule (Expands.refl rule.symbols) h
    | cons s' front =>
      obtain ⟨rfl, rfl⟩ := List.cons.inj hnext
      exact .keep (ih rfl)
  | @replace name' rule' form inner next hrule' hinner h ihinner ih =>
    rcases List.append_eq_append_iff.mp hnext with ⟨front', rfl, rfl⟩ | ⟨inner', rfl, hback⟩
    · -- the nonterminal stands behind what the first symbol expands to
      have := Expands.replace hrule' hinner (ih rfl)
      simpa using this
    · cases inner' with
      | nil =>
        have hrest : Expands g form ([] ++ rule.symbols ++ back) := ih hback.symm
        simpa using Expands.replace hrule' hinner hrest
      | cons s inner' =>
        -- the nonterminal stands in what the first symbol expands to
        obtain ⟨rfl, rfl⟩ := List.cons.inj hback
        have := Expands.replace hrule' (ihinner rfl) h
        simpa using this

theorem Expands.derives (h : Expands g form next) : g.Derives form next := by
  induction h with
  | nil => exact .refl
  | @keep s form next _ ih => simpa using ih.append [s] []
  | @replace name rule form inner next hrule _ _ ihinner ih =>
    have hfirst := derives_rule hrule [] form
    have hsecond := ihinner.append [] form
    have hthird := ih.append inner []
    simp only [List.nil_append, List.append_nil] at hfirst hsecond hthird
    exact (hfirst.trans hsecond).trans hthird

/-- **Derivations can be put in order.** -/
theorem derives_iff_expands : g.Derives form next ↔ Expands g form next := by
  refine ⟨fun h => ?_, Expands.derives⟩
  induction h with
  | refl => exact Expands.refl form
  | tail _ hstep ih =>
    obtain ⟨front, name, back, rule, hrule, hform, rfl⟩ := hstep
    exact ih.tail hrule hform

theorem Expands.append (h : Expands g form next) (h' : Expands g form' next') :
    Expands g (form ++ form') (next ++ next') := by
  induction h with
  | nil => exact h'
  | keep _ ih => exact .keep ih
  | replace hrule hinner _ _ ih =>
    rw [List.append_assoc]
    exact .replace hrule hinner ih

theorem Takes.append {tokens tokens' : List Token} (h : Takes form tokens)
    (h' : Takes form' tokens') : Takes (form ++ form') (tokens ++ tokens') :=
  List.rel_append h h'

/-- What takes the tokens of two forms takes those of the first and then those of the second. -/
theorem Takes.split {tokens : List Token} (h : Takes (form ++ form') tokens) :
    ∃ first second, tokens = first ++ second ∧ Takes form first ∧ Takes form' second := by
  induction form generalizing tokens with
  | nil => exact ⟨[], tokens, rfl, .nil, h⟩
  | cons s form ih =>
    cases h with
    | cons hs h =>
      obtain ⟨first, second, rfl, hfirst, hsecond⟩ := ih h
      exact ⟨_ :: first, second, rfl, .cons hs hfirst, hsecond⟩

/-- The beginning of a viable beginning is viable. -/
theorem Viable.of_append {tokens more : List Token} (h : g.Viable (tokens ++ more)) :
    g.Viable tokens := by
  obtain ⟨form, rest, hderives, htakes⟩ := h
  refine ⟨form.take tokens.length, form.drop tokens.length ++ rest, ?_, ?_⟩
  · rwa [← List.append_assoc, List.take_append_drop]
  · have htake := List.forall₂_take tokens.length htakes
    rwa [List.take_left] at htake

theorem Sentence.viable {tokens : List Token} (h : g.Sentence tokens) : g.Viable tokens := by
  obtain ⟨form, hderives, htakes⟩ := h
  exact ⟨form, [], by rwa [List.append_nil], htakes⟩

end Grammar

/-! ## Derivations and trees -/

open Grammar (Expands Takes)

variable {g : Grammar} {form next : List Symbol} {tokens : List Token} {s : Symbol} {tree : Tree}
  {children : List Tree} {name : String}

/-- A row of symbols expands to what they expand to one by one. -/
theorem Grammar.Expands.of_row
    (h : List.Forall₂ (fun s c => ∃ form, Expands g [s] form ∧ Takes form c.tokens) form children) :
    ∃ next, Expands g form next ∧ Takes next (children.flatMap Tree.tokens) := by
  induction h with
  | nil => exact ⟨[], .nil, .nil⟩
  | cons hc _ ih =>
    obtain ⟨first, hfirst, htakes⟩ := hc
    obtain ⟨rest, hrest, htakes'⟩ := ih
    exact ⟨first ++ rest, hfirst.append hrest, htakes.append htakes'⟩

/-- **What a tree derives** its symbol expands to. -/
theorem Tree.Fits.exists_expands (h : tree.Fits g s) :
    ∃ form, Expands g [s] form ∧ Takes form tree.tokens := by
  induction h using Tree.Fits.induction with
  | leaf s t haccepts =>
    refine ⟨[s], Expands.refl [s], ?_⟩
    rw [Tree.tokens_leaf]
    exact .cons haccepts .nil
  | node rule a children hrule _ ih =>
    obtain ⟨form, hform, htakes⟩ := Expands.of_row (ih.imp fun _ _ ⟨_, hc⟩ => hc)
    refine ⟨form ++ [], .replace (List.mem_of_getElem? hrule) hform .nil, ?_⟩
    rw [List.append_nil, Tree.tokens_node]
    exact htakes

/-- **What a form expands to** has a row of trees over the tokens that it takes. -/
theorem Grammar.Expands.exists_trees (h : Expands g form next) (htakes : Takes next tokens) :
    ∃ trees, List.Forall₂ (Tree.Fits g) form trees ∧ trees.flatMap Tree.tokens = tokens := by
  induction h generalizing tokens with
  | nil =>
    cases htakes
    exact ⟨[], .nil, rfl⟩
  | keep _ ih =>
    -- a symbol that is kept takes one token, which is a leaf
    cases htakes with
    | @cons _ t _ rest hs htakes =>
      obtain ⟨trees, hfits, rfl⟩ := ih htakes
      exact ⟨.leaf t :: trees, .cons (.leaf hs) hfits, by simp⟩
  | @replace name rule form inner next hrule _ _ ihinner ih =>
    -- a nonterminal that is replaced takes the tokens of its rule, whose trees make a node
    obtain ⟨first, second, rfl, hfirst, hsecond⟩ := htakes.split
    obtain ⟨children, hchildren, rfl⟩ := ihinner hfirst
    obtain ⟨trees, hfits, rfl⟩ := ih hsecond
    obtain ⟨a, ha⟩ := List.mem_iff_getElem?.mp hrule
    obtain rfl := Grammar.name_of_rulesFor ha
    exact ⟨.node rule a children :: trees, .cons (.node ha hchildren) hfits, by simp⟩

/-! ## Admissible trees -/

/-- An admissible tree without input holds such a tree for each name inside it. -/
theorem Tree.Fits.exists_inside (h : tree.Fits g s) :
    tree.Admissible → tree.tokens = [] → name ∈ tree.names →
      ∃ sub : Tree, sub.Fits g (.nonterminal name) ∧ sub.Admissible ∧ sub.tokens = [] := by
  induction h using Tree.Fits.induction with
  | leaf s t => simp
  | node rule a children hrule hchildren ih =>
    intro hadm hempty hname
    rw [Tree.names_node] at hname
    rcases List.mem_cons.mp hname with rfl | hname
    · exact ⟨_, .node hrule hchildren, hadm, hempty⟩
    · -- the name is inside one of the children, which have no input either
      obtain ⟨c, hmem, hname⟩ := List.mem_flatMap.mp hname
      obtain ⟨-, -, -, hc⟩ := Tree.exists_of_mem_children ih hmem
      rw [Tree.tokens_node, List.flatMap_eq_nil_iff] at hempty
      exact hc ((Tree.admissible_node.mp hadm).2 c hmem) (hempty c hmem) hname

theorem Tree.exists_admissible_row
    (h : List.Forall₂ (fun s c => ∃ c' : Tree, c'.Fits g s ∧ c'.Admissible ∧ c'.tokens = c.tokens)
      form children) :
    ∃ children', List.Forall₂ (Tree.Fits g) form children' ∧ (∀ c ∈ children', c.Admissible) ∧
      children'.flatMap Tree.tokens = children.flatMap Tree.tokens := by
  induction h with
  | nil => exact ⟨[], .nil, by simp, rfl⟩
  | cons hc _ ih =>
    obtain ⟨c', hfits, hadm, htokens⟩ := hc
    obtain ⟨rest, hrest, hadms, htokens'⟩ := ih
    refine ⟨c' :: rest, .cons hfits hrest, ?_, by simp [htokens, htokens']⟩
    intro c hmem
    rcases List.mem_cons.mp hmem with rfl | hmem
    · exact hadm
    · exact hadms c hmem

/-- **Every tree has an admissible counterpart** over the same tokens. -/
theorem Tree.Fits.exists_admissible (h : tree.Fits g s) :
    ∃ tree' : Tree, tree'.Fits g s ∧ tree'.Admissible ∧ tree'.tokens = tree.tokens := by
  induction h using Tree.Fits.induction with
  | leaf s t haccepts => exact ⟨.leaf t, .leaf haccepts, Tree.admissible_leaf t, rfl⟩
  | node rule a children hrule _ ih =>
    obtain ⟨children', hfits, hadms, htokens⟩ :=
      Tree.exists_admissible_row (ih.imp fun _ _ ⟨_, hc⟩ => hc)
    by_cases hrepeat : children'.flatMap Tree.tokens = [] ∧ rule.name ∈ children'.flatMap Tree.names
    · -- a derivation without input repeats the name: take that one instead
      obtain ⟨hempty, hname⟩ := hrepeat
      obtain ⟨c, hmem, hname⟩ := List.mem_flatMap.mp hname
      obtain ⟨s, -, hc⟩ := Tree.exists_of_mem_children hfits hmem
      have hcempty := List.flatMap_eq_nil_iff.mp hempty c hmem
      obtain ⟨sub, hsub, hadm, hsubempty⟩ := hc.exists_inside (hadms c hmem) hcempty hname
      exact ⟨sub, hsub, hadm, by rw [hsubempty, Tree.tokens_node, ← htokens, hempty]⟩
    · refine ⟨.node rule a children', .node hrule hfits, Tree.admissible_node.mpr ⟨?_, hadms⟩, ?_⟩
      · exact fun hempty hname => hrepeat ⟨hempty, hname⟩
      · rw [Tree.tokens_node, Tree.tokens_node, htokens]

theorem Tree.exists_values
    (h : List.Forall₂ (fun _ c => ∀ origin, ∃ v, Tree.value? origin c = some v) form children)
    (origin : Nat) : ∃ vs, Tree.values? origin children = some vs := by
  induction h generalizing origin with
  | nil => exact ⟨[], rfl⟩
  | @cons s c form children hc _ ih =>
    obtain ⟨v, hv⟩ := hc origin
    obtain ⟨vs, hvs⟩ := ih (origin + c.tokens.length)
    exact ⟨v :: vs, by rw [Tree.values?_cons, hv, Option.bind_some, hvs, Option.map_some]⟩

/-- **Without refusals every tree has a value.** -/
theorem Tree.Fits.exists_value (h : tree.Fits g s) (hg : g.NeverRejects) (origin : Nat) :
    ∃ v, tree.value? origin = some v := by
  induction h using Tree.Fits.induction generalizing origin with
  | leaf s t => exact ⟨.token t, rfl⟩
  | node rule a children hrule _ ih =>
    obtain ⟨vs, hvs⟩ := Tree.exists_values (ih.imp fun _ _ ⟨_, hc⟩ => hc) origin
    have hmem : rule ∈ g.rules := List.mem_of_mem_filter (List.mem_of_getElem? hrule)
    obtain ⟨v, hv⟩ := hg rule hmem vs origin
    exact ⟨v, by rw [Tree.value?_node, hvs, Option.bind_some, hv]⟩

/-- **Sentences have admissible trees.** -/
theorem Grammar.sentence_iff :
    g.Sentence tokens ↔ ∃ tree : Tree, tree.Fits g (.nonterminal g.start) ∧ tree.Admissible ∧
      tree.tokens = tokens := by
  constructor
  · rintro ⟨form, hform, htakes⟩
    obtain ⟨trees, hfits, rfl⟩ := (Grammar.derives_iff_expands.mp hform).exists_trees htakes
    -- the start is one symbol, so there is one tree
    obtain ⟨tree, rest, htree, hnil, rfl⟩ := List.forall₂_cons_left_iff.mp hfits
    obtain rfl := List.forall₂_nil_left_iff.mp hnil
    obtain ⟨tree', hfits', hadm, htokens⟩ := htree.exists_admissible
    exact ⟨tree', hfits', hadm, by simpa using htokens⟩
  · rintro ⟨tree, hfits, -, rfl⟩
    obtain ⟨form, hform, htakes⟩ := hfits.exists_expands
    exact ⟨form, hform.derives, htakes⟩

end Earley
