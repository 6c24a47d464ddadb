import Earley.Proofs.Grammar.Tree

/-!
# Text kept by rules

Some reducers keep the source text of the children, in order: those that make a list of the children
or a string of their texts, those that put one child in front of a list or behind one, as long as
there are no more than two children, and the one that takes the first child, if there is no other. In
a grammar with no other reducers, the value of a derivation tree still has the source text of the
tokens at its leaves, however the reducers are nested.

## Main definitions

* `Rule.KeepsText`: the rules whose reducers keep the text
* `Grammar.KeepsText`: a grammar of such rules

## Main results

* `Rule.KeepsText.rendered_eq`: the value of a rule has the text of the children
* `Tree.Fits.rendered_eq`: the value of a tree has the text of its tokens
-/

namespace Earley

/-! ## Texts of rows -/

theorem Token.rendered_append (front back : List Token) :
    Token.rendered (front ++ back) = Token.rendered front ++ Token.rendered back := by
  rw [Token.rendered, List.map_append, String.join_append]
  rfl

/-- Several tokens have the characters of their source texts. -/
theorem Token.toList_rendered (tokens : List Token) :
    (Token.rendered tokens).toList = tokens.flatMap fun t => t.literal.toList := by
  rw [Token.rendered, String.toList_join, List.flatMap_map]

theorem Value.renderedAll_append (front back : List Value) :
    Value.renderedAll (front ++ back) = Value.renderedAll front ++ Value.renderedAll back := by
  induction front with
  | nil => exact String.empty_append.symm
  | cons v rest ih => simp only [List.cons_append, Value.renderedAll, ih, String.append_assoc]

/-- The text of a list is that of its items. -/
theorem Value.rendered_list (items : List Value) :
    (Value.list items).rendered = Value.renderedAll items := by
  rw [Value.rendered]

@[simp] theorem Value.renderedAll_singleton (v : Value) : Value.renderedAll [v] = v.rendered :=
  String.append_empty

theorem Value.renderedAll_pair (a b : Value) :
    Value.renderedAll [a, b] = a.rendered ++ b.rendered := by
  rw [Value.renderedAll, Value.renderedAll_singleton]

/-! ## Reducers that keep the text -/

namespace Reducer

variable {children : List Value} {origin : Nat} {v : Value}

/-- Putting a child in front keeps the text of two children. -/
theorem rendered_prepend (hle : children.length ≤ 2) (h : prepend children origin = some v) :
    v.rendered = Value.renderedAll children := by
  match children with
  | [] | [a] =>
    obtain rfl := Option.some.inj h
    exact Value.rendered_list _
  | [a, b] =>
    cases b with
    | list items =>
      obtain rfl := Option.some.inj h
      rw [Value.rendered_list, Value.renderedAll_pair, Value.rendered_list, Value.renderedAll]
    | _ =>
      obtain rfl := Option.some.inj h
      exact Value.rendered_list _
  | _ :: _ :: _ :: _ => exact absurd hle (by simp)

/-- Putting a child behind keeps the text of two children. -/
theorem rendered_append (hle : children.length ≤ 2) (h : append children origin = some v) :
    v.rendered = Value.renderedAll children := by
  match children with
  | [] =>
    obtain rfl := Option.some.inj h
    exact Value.rendered_list _
  | a :: rest =>
    -- of the children behind the first one only one is put behind it, but there are no more
    have hrest : rest.take 1 = rest := by
      refine List.take_of_length_le ?_
      rw [List.length_cons] at hle
      omega
    cases a with
    | list items =>
      obtain rfl := Option.some.inj h
      rw [hrest, Value.rendered_list, Value.renderedAll_append, Value.renderedAll,
        Value.rendered_list]
    | _ =>
      obtain rfl := Option.some.inj h
      rw [hrest, Value.rendered_list]

/-- The first child has the text of all if there is no other. -/
theorem rendered_first (hle : children.length ≤ 1) (h : first children origin = some v) :
    v.rendered = Value.renderedAll children := by
  match children with
  | [] =>
    obtain rfl := Option.some.inj h
    rfl
  | [a] =>
    obtain rfl := Option.some.inj h
    exact (Value.renderedAll_singleton a).symm
  | _ :: _ :: _ => exact absurd hle (by simp)

end Reducer

/-- **A rule keeps the text** of what its symbols derive, by a reducer that does so for as many
children as there are symbols. -/
inductive Rule.KeepsText (rule : Rule) : Prop
  | pack (h : rule.reduce = Reducer.pack)
  | join (h : rule.reduce = Reducer.join)
  | prepend (h : rule.reduce = Reducer.prepend) (hle : rule.symbols.length ≤ 2)
  | append (h : rule.reduce = Reducer.append) (hle : rule.symbols.length ≤ 2)
  | first (h : rule.reduce = Reducer.first) (hle : rule.symbols.length ≤ 1)

/-- **A grammar keeps the text** if each of its rules does. -/
def Grammar.KeepsText (g : Grammar) : Prop :=
  ∀ rule ∈ g.rules, rule.KeepsText

/-- **The value of a rule has the text of the children.** -/
theorem Rule.KeepsText.rendered_eq {rule : Rule} {children : List Value} {origin : Nat} {v : Value}
    (h : rule.KeepsText) (hlength : children.length = rule.symbols.length)
    (hv : rule.reduce children origin = some v) : v.rendered = Value.renderedAll children := by
  cases h with
  | pack h =>
    rw [h] at hv
    obtain rfl := Option.some.inj hv
    exact Value.rendered_list children
  | join h =>
    rw [h] at hv
    obtain rfl := Option.some.inj hv
    rw [Value.rendered]
  | prepend h hle =>
    rw [h] at hv
    exact Reducer.rendered_prepend (hlength ▸ hle) hv
  | append h hle =>
    rw [h] at hv
    exact Reducer.rendered_append (hlength ▸ hle) hv
  | first h hle =>
    rw [h] at hv
    exact Reducer.rendered_first (hlength ▸ hle) hv

/-! ## Trees -/

namespace Tree

variable {g : Grammar} {s : Symbol} {tree : Tree} {children : List Tree} {origin : Nat} {v : Value}
  {vs : List Value}

/-- The values of a row of trees have the text of its tokens if that is so for each of them. -/
theorem renderedAll_of_values? (hvs : values? origin children = some vs)
    (h : ∀ c ∈ children, ∀ origin v, c.value? origin = some v →
      v.rendered = Token.rendered c.tokens) :
    Value.renderedAll vs = Token.rendered (children.flatMap tokens) := by
  induction children generalizing origin vs with
  | nil =>
    obtain rfl := Option.some.inj hvs
    rfl
  | cons c rest ih =>
    rw [values?_cons] at hvs
    obtain ⟨v, hv, hvs⟩ := Option.bind_eq_some_iff.mp hvs
    obtain ⟨later, hlater, rfl⟩ := Option.map_eq_some_iff.mp hvs
    have hrest := ih hlater fun d hd => h d (List.mem_cons_of_mem c hd)
    rw [Value.renderedAll, List.flatMap_cons, Token.rendered_append, hrest,
      h c List.mem_cons_self _ _ hv]

/-- **The value of a tree has the text of its tokens**, in a grammar that keeps the text. -/
theorem Fits.rendered_eq (hg : g.KeepsText) (h : tree.Fits g s) (hv : tree.value? origin = some v) :
    v.rendered = Token.rendered tree.tokens := by
  induction tree generalizing s origin v with
  | leaf t =>
    obtain rfl := Option.some.inj hv
    rw [tokens_leaf, Value.rendered]
    exact String.empty_append.symm
  | node rule a children ih =>
    obtain ⟨-, hrule, hchildren⟩ := fits_node.mp h
    rw [value?_node] at hv
    obtain ⟨vs, hvs, hv⟩ := Option.bind_eq_some_iff.mp hv
    have hmem : rule ∈ g.rules := (List.mem_filter.mp (List.mem_of_getElem? hrule)).1
    -- the reducer gets one child for each symbol, which is what it may count on
    have hlength : vs.length = rule.symbols.length :=
      (length_of_values? hvs).trans hchildren.length_eq.symm
    calc v.rendered = Value.renderedAll vs := (hg rule hmem).rendered_eq hlength hv
      _ = Token.rendered (children.flatMap tokens) := by
        refine renderedAll_of_values? hvs fun c hc origin v hvalue => ?_
        obtain ⟨s, -, hfits⟩ := exists_of_mem_children hchildren hc
        exact ih c hc hfits hvalue
      _ = Token.rendered (Tree.node rule a children).tokens := by rw [tokens_node]

end Tree

end Earley
