import DynamoExpr.Proofs.Grammar.Condition
import DynamoExpr.Proofs.Tree.Alike

/-!
# Reading conditions back

The tokens of an aliased condition have a derivation tree, and with the entries for its aliases
that tree is the condition again, up to the grouping of chains and the equality of values.  The
induction gives a condition three trees at once: as it stands, and as a side of AND and of OR,
where it may be in parentheses.
-/

namespace DynamoExpr

open Grammar

namespace Dictionary

variable {dictionary : Dictionary} {table : Aliases}

theorem operand?_map {operand : PlainOperand}
    (h : ∀ leaf ∈ operand.leaves, dictionary.Explains table leaf) :
    ∃ read, dictionary.operand? (operand.map table.numberPath table.valueNumber) = some read ∧
      read.Like AttributeValue.Equals operand := by
  cases operand with
  | name path =>
      exact ⟨.name path, by simp [operand?, Operand.map, path?_numberPath h], .name path⟩
  | value v =>
      obtain ⟨w, hw, heq⟩ := h (.value v) (List.mem_singleton.2 rfl)
      exact ⟨.value w, by simp [operand?, Operand.map, hw], .value heq⟩
  | size path =>
      exact ⟨.size path, by simp [operand?, Operand.map, path?_numberPath h], .size path⟩

theorem operands?_map {operands : List PlainOperand}
    (h : ∀ leaf ∈ operands.flatMap Operand.leaves, dictionary.Explains table leaf) :
    ∃ reads, (operands.map (Operand.map table.numberPath table.valueNumber)).mapM
        dictionary.operand? = some reads ∧
      List.Forall₂ (Operand.Like AttributeValue.Equals) reads operands := by
  induction operands with
  | nil => exact ⟨[], rfl, .nil⟩
  | cons operand rest ih =>
      rw [List.flatMap_cons, List.forall_mem_append] at h
      obtain ⟨read, hread, hlike⟩ := operand?_map h.1
      obtain ⟨reads, hreads, hall⟩ := ih h.2
      refine ⟨read :: reads, ?_, .cons hlike hall⟩
      rw [List.map_cons, List.mapM_cons, hread, hreads]
      rfl

end Dictionary

namespace Grammar

/-! ## Chains -/

def Conjunction.append : Conjunction → Conjunction → Conjunction
  | .last only, k => .and only k
  | .and first rest, k => .and first (rest.append k)

def Disjunction.append : Disjunction → Disjunction → Disjunction
  | .last only, d => .or only d
  | .or first rest, d => .or first (rest.append d)

theorem Conjunction.tokens_append : ∀ c k : Conjunction,
    (c.append k).tokens = c.tokens ++ .connective .and :: k.tokens
  | .last only, k => rfl
  | .and first rest, k => by
      rw [append, tokens, rest.tokens_append k, tokens, List.append_assoc, List.cons_append]

theorem Disjunction.tokens_append : ∀ d e : Disjunction,
    (d.append e).tokens = d.tokens ++ .connective .or :: e.tokens
  | .last only, e => rfl
  | .or first rest, e => by
      rw [append, tokens, rest.tokens_append e, tokens, List.append_assoc, List.cons_append]

theorem like_self (condition : PlainCondition) :
    condition.Like AttributeValue.Equals condition :=
  .refl (fun _ => BEq.rfl) condition

variable {dictionary : Dictionary}

theorem Conjunction.condition?_append : ∀ (c k : Conjunction) {x y : PlainCondition},
    c.condition? dictionary = some x → k.condition? dictionary = some y →
      ∃ z, (c.append k).condition? dictionary = some z ∧
        z.Like AttributeValue.Equals (.join .and x y)
  | .last only, k, x, y, hx, hy => by
      refine ⟨.join .and x y, ?_, like_self _⟩
      rw [append, condition?, hy, show only.condition? dictionary = some x from hx]
      rfl
  | .and first rest, k, x, y, hx, hy => by
      simp only [condition?, Option.bind_eq_bind, Option.bind_eq_some_iff, Option.pure_def,
        Option.some.injEq] at hx
      rcases hx with ⟨f, hf, r, hr, rfl⟩
      obtain ⟨z, hz, hlike⟩ := condition?_append rest k hr hy
      refine ⟨.join .and f z, ?_, ?_⟩
      · rw [append, condition?, hf, hz]
        rfl
      · have hinner : (Condition.join .and f z).Like AttributeValue.Equals
            (.join .and f (.join .and r y)) := .join .and (like_self f) hlike
        exact hinner.trans (.symm (.assoc .and f r y))

theorem Disjunction.condition?_append : ∀ (d e : Disjunction) {x y : PlainCondition},
    d.condition? dictionary = some x → e.condition? dictionary = some y →
      ∃ z, (d.append e).condition? dictionary = some z ∧
        z.Like AttributeValue.Equals (.join .or x y)
  | .last only, e, x, y, hx, hy => by
      refine ⟨.join .or x y, ?_, like_self _⟩
      rw [append, condition?, hy, show only.condition? dictionary = some x from hx]
      rfl
  | .or first rest, e, x, y, hx, hy => by
      simp only [condition?, Option.bind_eq_bind, Option.bind_eq_some_iff, Option.pure_def,
        Option.some.injEq] at hx
      rcases hx with ⟨f, hf, r, hr, rfl⟩
      obtain ⟨z, hz, hlike⟩ := condition?_append rest e hr hy
      refine ⟨.join .or f z, ?_, ?_⟩
      · rw [append, condition?, hf, hz]
        rfl
      · have hinner : (Condition.join .or f z).Like AttributeValue.Equals
            (.join .or f (.join .or r y)) := .join .or (like_self f) hlike
        exact hinner.trans (.symm (.assoc .or f r y))

/-! ## Trees that read as a condition -/

def ReadsAs (read : Option PlainCondition) (condition : PlainCondition) : Prop :=
  ∃ c, read = some c ∧ c.Like AttributeValue.Equals condition

/-- A factor with these tokens reads as the condition. -/
def FactorReads (dictionary : Dictionary) (tokens : List Token) (condition : PlainCondition) :
    Prop :=
  ∃ f : Factor, f.tokens = tokens ∧ ReadsAs (f.condition? dictionary) condition

def ConjunctionReads (dictionary : Dictionary) (tokens : List Token)
    (condition : PlainCondition) : Prop :=
  ∃ c : Conjunction, c.tokens = tokens ∧ ReadsAs (c.condition? dictionary) condition

def DisjunctionReads (dictionary : Dictionary) (tokens : List Token)
    (condition : PlainCondition) : Prop :=
  ∃ d : Disjunction, d.tokens = tokens ∧ ReadsAs (d.condition? dictionary) condition

variable {tokens more : List Token} {left right condition : PlainCondition}

theorem FactorReads.conjunction (h : FactorReads dictionary tokens condition) :
    ConjunctionReads dictionary tokens condition := by
  rcases h with ⟨f, htokens, hread⟩
  exact ⟨.last f, htokens, hread⟩

theorem ConjunctionReads.disjunction (h : ConjunctionReads dictionary tokens condition) :
    DisjunctionReads dictionary tokens condition := by
  rcases h with ⟨c, htokens, hread⟩
  exact ⟨.last c, htokens, hread⟩

theorem DisjunctionReads.group (h : DisjunctionReads dictionary tokens condition) :
    FactorReads dictionary (.opening :: (tokens ++ [.closing])) condition := by
  rcases h with ⟨d, rfl, hread⟩
  exact ⟨.group d, rfl, hread⟩

theorem DisjunctionReads.not (h : DisjunctionReads dictionary tokens condition) :
    FactorReads dictionary (.not :: (tokens ++ [.closing])) (.not condition) := by
  rcases h with ⟨d, rfl, c, hread, hlike⟩
  exact ⟨.not d, rfl, .not c, by rw [Factor.condition?, hread]; rfl, hlike.not⟩

theorem ConjunctionReads.and (hleft : ConjunctionReads dictionary tokens left)
    (hright : ConjunctionReads dictionary more right) :
    ConjunctionReads dictionary (tokens ++ .connective .and :: more) (.join .and left right) := by
  rcases hleft with ⟨c, rfl, x, hx, hlikex⟩
  rcases hright with ⟨k, rfl, y, hy, hlikey⟩
  obtain ⟨z, hz, hlike⟩ := c.condition?_append k hx hy
  exact ⟨c.append k, c.tokens_append k, z, hz, hlike.trans (.join .and hlikex hlikey)⟩

theorem DisjunctionReads.or (hleft : DisjunctionReads dictionary tokens left)
    (hright : DisjunctionReads dictionary more right) :
    DisjunctionReads dictionary (tokens ++ .connective .or :: more) (.join .or left right) := by
  rcases hleft with ⟨d, rfl, x, hx, hlikex⟩
  rcases hright with ⟨e, rfl, y, hy, hlikey⟩
  obtain ⟨z, hz, hlike⟩ := d.condition?_append e hx hy
  exact ⟨d.append e, d.tokens_append e, z, hz, hlike.trans (.join .or hlikex hlikey)⟩

theorem FactorReads.ofTest {subject : AliasOperand} {test : Test} {s : PlainOperand}
    (hsubject : dictionary.operand? subject = some s)
    (htest : ReadsAs (test.condition? dictionary s) condition) :
    FactorReads dictionary (subject.tokens ++ test.tokens) condition := by
  rcases htest with ⟨c, hc, hlike⟩
  refine ⟨.operand subject test, rfl, c, ?_, hlike⟩
  rw [Factor.condition?, hsubject]
  exact hc

end Grammar

namespace Condition

variable {dictionary : Dictionary} {table : Aliases}

theorem joinsOtherwise_map {ν μ β γ : Type} (op : Connective) (f : ν → μ) (g : β → γ)
    (condition : Condition ν β) :
    (condition.map f g).joinsOtherwise op = condition.joinsOtherwise op := by
  cases condition <;> rfl

/-- The tokens of the condition with the numbers of its leaves. -/
def numbered (table : Aliases) (condition : PlainCondition) : List Token :=
  (condition.map table.numberPath table.valueNumber).tokens

/-- Trees for the condition as it stands, and as a side of AND and of OR. -/
structure Reads (dictionary : Dictionary) (table : Aliases) (condition : PlainCondition) :
    Prop where
  whole : DisjunctionReads dictionary (condition.numbered table) condition
  side_and : ConjunctionReads dictionary
    (enclosed (condition.joinsOtherwise .and) (condition.numbered table)) condition
  side_or : DisjunctionReads dictionary
    (enclosed (condition.joinsOtherwise .or) (condition.numbered table)) condition

theorem Reads.ofFactor {condition : PlainCondition} (hand : condition.joinsOtherwise .and = false)
    (hor : condition.joinsOtherwise .or = false)
    (h : FactorReads dictionary (condition.numbered table) condition) :
    condition.Reads dictionary table := by
  refine ⟨h.conjunction.disjunction, ?_, ?_⟩
  · rw [hand]
    exact h.conjunction
  · rw [hor]
    exact h.conjunction.disjunction

theorem numbered_join (op : Connective) (left right : PlainCondition) :
    (Condition.join op left right).numbered table =
      enclosed (left.joinsOtherwise op) (left.numbered table) ++ .connective op ::
        enclosed (right.joinsOtherwise op) (right.numbered table) := by
  simp only [numbered, map, tokens, joinsOtherwise_map]

/-- Every IN list has a candidate. -/
def HasCandidates {ν β : Type} : Condition ν β → Prop
  | .within _ candidates => candidates ≠ []
  | .join _ left right => left.HasCandidates ∧ right.HasCandidates
  | .not inner => inner.HasCandidates
  | _ => True

theorem reads {condition : PlainCondition} (hcandidates : condition.HasCandidates)
    (h : ∀ leaf ∈ condition.leaves, dictionary.Explains table leaf) :
    condition.Reads dictionary table := by
  induction condition with
  | compare op left right =>
      obtain ⟨hleft, hright⟩ := List.forall_mem_append.1 h
      obtain ⟨l, hl, hlikel⟩ := Dictionary.operand?_map hleft
      obtain ⟨r, hr, hliker⟩ := Dictionary.operand?_map hright
      have htest : ReadsAs ((Test.compare op (right.map table.numberPath table.valueNumber)
          ).condition? dictionary l) (.compare op left right) :=
        ⟨.compare op l r, by rw [Test.condition?, hr]; rfl, .atom (.compare op hlikel hliker)⟩
      exact .ofFactor rfl rfl (.ofTest hl htest)
  | between value low high =>
      obtain ⟨hfirst, hhigh⟩ := List.forall_mem_append.1 h
      obtain ⟨hvalue, hlow⟩ := List.forall_mem_append.1 hfirst
      obtain ⟨v, hv, hlikev⟩ := Dictionary.operand?_map hvalue
      obtain ⟨l, hl, hlikel⟩ := Dictionary.operand?_map hlow
      obtain ⟨u, hu, hlikeu⟩ := Dictionary.operand?_map hhigh
      have htest : ReadsAs ((Test.between (low.map table.numberPath table.valueNumber)
          (high.map table.numberPath table.valueNumber)).condition? dictionary v)
          (.between value low high) :=
        ⟨.between v l u, by rw [Test.condition?, hl, hu]; rfl,
          .atom (.between hlikev hlikel hlikeu)⟩
      have hfactor := FactorReads.ofTest hv htest
      refine .ofFactor rfl rfl ?_
      rwa [numbered, map, tokens, List.append_assoc]
  | within value candidates =>
      obtain ⟨hvalue, hrest⟩ := List.forall_mem_append.1 h
      obtain ⟨v, hv, hlikev⟩ := Dictionary.operand?_map hvalue
      obtain ⟨reads, hreads, hlike⟩ := Dictionary.operands?_map hrest
      cases candidates with
      | nil => exact absurd rfl hcandidates
      | cons first rest =>
          have htest : ReadsAs ((Test.within (first.map table.numberPath table.valueNumber)
              (rest.map (Operand.map table.numberPath table.valueNumber))).condition? dictionary v)
              (.within value (first :: rest)) := by
            refine ⟨.within v reads, ?_, .atom (.within hlikev hlike)⟩
            rw [Test.condition?, ← List.map_cons, hreads]
            rfl
          have hfactor := FactorReads.ofTest hv htest
          refine .ofFactor rfl rfl ?_
          rwa [numbered, map, tokens, List.append_assoc]
  | presence function path =>
      have hpath := Dictionary.path?_numberPath h
      refine .ofFactor rfl rfl ⟨.call (.presence function) (.name (table.numberPath path)) [], rfl,
        .presence function path, ?_, .atom (.presence function path)⟩
      rw [Factor.condition?, TestFunction.condition?, hpath]
      rfl
  | test function path v =>
      obtain ⟨hpath, hvalue⟩ := List.forall_mem_append.1 h
      obtain ⟨w, hw, heq⟩ := hvalue (.value v) (List.mem_singleton.2 rfl)
      refine .ofFactor rfl rfl ⟨.call (.test function) (.name (table.numberPath path))
        [.value (table.valueNumber v)], ?_, .test function path w, ?_, .atom (.test function path heq)⟩
      · simp [Factor.tokens, Token.list, Token.separate, numbered, map, tokens, Operand.tokens,
          TestFunction.name]
      · rw [Factor.condition?, TestFunction.condition?, Dictionary.path?_numberPath hpath, hw]
        rfl
  | join op left right hleft hright =>
      obtain ⟨hl, hr⟩ := List.forall_mem_append.1 h
      have hleft := hleft hcandidates.1 hl
      have hright := hright hcandidates.2 hr
      cases op with
      | and =>
          have hchain : ConjunctionReads dictionary ((join .and left right).numbered table)
              (.join .and left right) := by
            rw [numbered_join]
            exact hleft.side_and.and hright.side_and
          exact ⟨hchain.disjunction, hchain, hchain.disjunction.group.conjunction.disjunction⟩
      | or =>
          have hchain : DisjunctionReads dictionary ((join .or left right).numbered table)
              (.join .or left right) := by
            rw [numbered_join]
            exact hleft.side_or.or hright.side_or
          exact ⟨hchain, hchain.group.conjunction, hchain⟩
  | not inner hinner =>
      exact .ofFactor rfl rfl (hinner hcandidates h).whole.not

theorem hasCandidates_of_checked {limits : Limits} {source : SourceCondition}
    {plain : PlainCondition} (h : source.checked limits = .ok plain) : plain.HasCandidates := by
  induction source generalizing plain with
  | compare op left right =>
      obtain ⟨_, -, h⟩ := bind_eq_ok_iff.1 h
      obtain ⟨_, -, h⟩ := bind_eq_ok_iff.1 h
      cases h
      trivial
  | between value low high =>
      obtain ⟨_, -, h⟩ := bind_eq_ok_iff.1 h
      obtain ⟨_, -, h⟩ := bind_eq_ok_iff.1 h
      obtain ⟨_, -, h⟩ := bind_eq_ok_iff.1 h
      cases h
      trivial
  | within value candidates =>
      obtain ⟨hnonempty, h⟩ := unlessFault_eq_ok_iff.1 h
      obtain ⟨_, -, h⟩ := bind_eq_ok_iff.1 (unlessFault_eq_ok_iff.1 h).2
      obtain ⟨reads, hreads, h⟩ := bind_eq_ok_iff.1 h
      cases h
      intro h
      subst h
      have hlength := (forall₂_of_mapM_checked hreads).length_eq
      exact hnonempty (List.isEmpty_iff_length_eq_zero.2 hlength.symm)
  | presence function ref =>
      obtain ⟨_, -, h⟩ := bind_eq_ok_iff.1 h
      cases h
      trivial
  | test function ref l =>
      obtain ⟨_, -, h⟩ := bind_eq_ok_iff.1 h
      obtain ⟨_, -, h⟩ := bind_eq_ok_iff.1 h
      cases h
      trivial
  | join op left right hleft hright =>
      obtain ⟨_, hl, h⟩ := bind_eq_ok_iff.1 h
      obtain ⟨_, hr, h⟩ := bind_eq_ok_iff.1 h
      cases h
      exact ⟨hleft hl, hright hr⟩
  | not inner hinner =>
      obtain ⟨_, hi, h⟩ := bind_eq_ok_iff.1 h
      cases h
      have hread := hinner hi
      exact hread

end Condition

/-! ## Built conditions -/

def Builder.conditionAt (builder : Builder) : ExpressionKind → Option SourceCondition
  | .condition => builder.condition
  | .filter => builder.filter
  | _ => none

def Draft.conditionAt (draft : Draft) : ExpressionKind → Option PlainCondition
  | .condition => draft.condition
  | .filter => draft.filter
  | _ => none

theorem Builder.conditionAt_checked {builder : Builder} {draft : Draft} {kind : ExpressionKind}
    {tree : SourceCondition} (h : builder.checked = .ok draft)
    (htree : builder.conditionAt kind = some tree) :
    ∃ plain, tree.checked builder.limits = .ok plain ∧ draft.conditionAt kind = some plain := by
  obtain ⟨hcondition, hfilter, -⟩ := checked_eq_ok_iff.1 h
  cases kind with
  | condition =>
      change builder.condition = some tree at htree
      rw [htree] at hcondition
      exact checked_mapM_some_eq_ok_iff.1 hcondition
  | filter =>
      change builder.filter = some tree at htree
      rw [htree] at hfilter
      exact checked_mapM_some_eq_ok_iff.1 hfilter
  | keyCondition => cases htree
  | projection => cases htree
  | update => cases htree

namespace Draft

variable {draft : Draft} {kind : ExpressionKind} {plain : PlainCondition}

theorem get_conditionAt (h : draft.conditionAt kind = some plain) :
    draft.expression.get kind = some (conditionText draft.aliases plain) := by
  cases kind with
  | condition => exact congrArg (Option.map _) h
  | filter => exact congrArg (Option.map _) h
  | keyCondition => cases h
  | projection => cases h
  | update => cases h

theorem leaves_conditionAt (h : draft.conditionAt kind = some plain) :
    ∀ leaf ∈ plain.leaves, leaf ∈ draft.leaves := by
  intro leaf hleaf
  cases kind with
  | condition => exact mem_leaves_iff.2 (.inl ⟨plain, h, hleaf⟩)
  | filter => exact mem_leaves_iff.2 (.inr (.inl ⟨plain, h, hleaf⟩))
  | keyCondition => cases h
  | projection => cases h
  | update => cases h

end Draft

theorem Condition.like_of_equals {read plain : PlainCondition}
    (h : read.Like AttributeValue.Equals plain) :
    (read.map NameRef.path Literal.value).Like Literal.Alike
      (plain.map NameRef.path Literal.value) :=
  h.map NameRef.path fun _ _ heq => Literal.alike_of_equals heq

/-- The text has a tree, which reads as the condition with any dictionary that explains it. -/
theorem Builder.exists_disjunction {builder : Builder} {draft : Draft} {kind : ExpressionKind}
    {tree : SourceCondition} {dictionary : Dictionary} (hdraft : builder.checked = .ok draft)
    (htree : builder.conditionAt kind = some tree)
    (hexplains : ∀ leaf ∈ draft.leaves, dictionary.Explains draft.aliases leaf) :
    ∃ (d : Disjunction) (read : PlainCondition), draft.expression.get kind = some d.text ∧
      d.condition? dictionary = some read ∧
      (read.map NameRef.path Literal.value).Like Literal.Alike tree := by
  obtain ⟨plain, hchecked, hplain⟩ := conditionAt_checked hdraft htree
  have hreads := Condition.reads (Condition.hasCandidates_of_checked hchecked)
    fun leaf hleaf => hexplains leaf (Draft.leaves_conditionAt hplain leaf hleaf)
  obtain ⟨d, htokens, read, hread, hlike⟩ := hreads.whole
  refine ⟨d, read, ?_, hread,
    (Condition.like_of_equals hlike).trans (Condition.like_of_checked hchecked)⟩
  rw [Draft.get_conditionAt hplain, ← d.texts_tokens, htokens]
  rfl

/--
The text of a condition or filter has exactly one derivation tree.  With the entries of the two
maps for its aliases this is the condition, up to the grouping of chains, the folding of lists and
the equality of values.  So it has the truth of the condition, and equal texts with equal maps
come from like conditions.
-/
theorem Builder.condition_round_trip {builder : Builder} {expression : Expression}
    {kind : ExpressionKind} {tree : SourceCondition} (hbuild : builder.build = .ok expression)
    (htree : builder.conditionAt kind = some tree) :
    ∃ (text : String) (parsed : Disjunction) (read : PlainCondition),
      expression.get kind = some text ∧
      (∀ d : Disjunction, d.text = text ↔ d = parsed) ∧
      parsed.condition? expression.dictionary = some read ∧
      (read.map NameRef.path Literal.value).Like Literal.Alike tree ∧
      (∀ {τ : Type} (logic : Logic τ) (atom : SourceCondition → τ),
        (∀ a b, Condition.AtomLike Literal.Alike a b → atom a = atom b) →
          (read.map NameRef.path Literal.value).truth logic atom = tree.truth logic atom) ∧
      ∀ (other : Builder) (expression' : Expression) (kind' : ExpressionKind)
        (tree' : SourceCondition), other.build = .ok expression' →
        other.conditionAt kind' = some tree' → expression'.get kind' = some text →
        expression'.names = expression.names → (expression'.values == expression.values) = true →
          tree'.Like Literal.Alike tree := by
  obtain ⟨-, draft, hdraft, -, rfl⟩ := build_eq_ok_iff.1 hbuild
  obtain ⟨parsed, read, htext, hread, hlike⟩ := exists_disjunction hdraft htree draft.explains
  refine ⟨parsed.text, parsed, read, htext,
    fun d => ⟨Disjunction.text_injective, fun h => by rw [h]⟩, hread, hlike,
    fun logic atom hatom => hlike.truth_eq hatom, ?_⟩
  intro other expression' kind' tree' hbuild' htree' htext' hnames hvalues
  obtain ⟨-, draft', hdraft', -, rfl⟩ := build_eq_ok_iff.1 hbuild'
  -- The maps of the first expression explain the other draft, so both texts are read with them.
  obtain ⟨parsed', read', hget', hread', hlike'⟩ := exists_disjunction hdraft' htree'
    (Draft.explains_of_equal hnames hvalues)
  rw [htext'] at hget'
  cases Disjunction.text_injective (Option.some.inj hget')
  rw [hread] at hread'
  cases hread'
  exact hlike'.symm.trans hlike

/-- Both connectives, a range and a candidate list over two paths that share a name. -/
def Condition.mixed : SourceCondition :=
  .join .and
    (.join .or (.between (.size (.path ⟨"a", []⟩)) (.value (.value (.string "x")))
      (.value (.value (.string "y"))))
      (.compare .lt (.name (.path ⟨"b", [.attribute "a", .index 2]⟩))
        (.value (.list [.value (.value (.string "x"))]))))
    (.not (.within (.name (.path ⟨"a", []⟩))
      [.value (.value (.string "y")), .name (.path ⟨"b", []⟩)]))

theorem mixed_condition_round_trip :
    ∃ (parsed : Disjunction) (read : PlainCondition),
      (∀ d : Disjunction,
        d.text = "(size(#0) BETWEEN :0 AND :1 OR #1.#0[2] < :2) AND NOT (#0 IN (:1, #1))" ↔
          d = parsed) ∧
      (read.map NameRef.path Literal.value).Like Literal.Alike Condition.mixed := by
  have hbuild : ({ condition := some Condition.mixed } : Builder).build = .ok
      { condition :=
          some "(size(#0) BETWEEN :0 AND :1 OR #1.#0[2] < :2) AND NOT (#0 IN (:1, #1))",
        filter := none, keyCondition := none, projection := none, update := none,
        aliases := ⟨["a", "b"], [.string "x", .string "y", .list [.string "x"]]⟩ } := by rfl
  obtain ⟨text, parsed, read, htext, hunique, -, hlike, -⟩ :=
    @Builder.condition_round_trip _ _ .condition _ hbuild rfl
  cases htext
  exact ⟨parsed, read, hunique, hlike⟩

end DynamoExpr
