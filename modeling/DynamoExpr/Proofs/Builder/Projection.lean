import DynamoExpr.Proofs.Alias.Dictionary
import DynamoExpr.Proofs.Builder.Stages
import DynamoExpr.Proofs.Grammar.Operand
import DynamoExpr.Proofs.Text.Separated
import DynamoExpr.Proofs.Tree.Parts

/-!
# Built projections

A projection is written as its distinct paths in the order of their first request.  The text splits
at its separators into one piece for each of them, and the names of an expression lead back from the
aliases of the piece to the path.
-/

namespace DynamoExpr

/-! ## The projections that can be made -/

/-- The projection is made from the paths in the order of the request. -/
inductive Projection.Made : List NameRef → SourceProjection → Prop where
  | new (names : List NameRef) : Made names ⟨names⟩
  | ofFirst (first : NameRef) (rest : List NameRef) :
    Made (first :: rest) (Projection.ofFirst first rest)
  | addNames {names : List NameRef} {tree : SourceProjection} (more : List NameRef) :
    Made names tree → Made (names ++ more) (tree.addNames more)

theorem Projection.Made.names_eq {names : List NameRef} {tree : SourceProjection}
    (h : Made names tree) : tree.names = names := by
  induction h with
  | new names => rfl
  | ofFirst first rest => rfl
  | addNames more _ ih => rw [Projection.addNames, ih]

/-! ## Requesting a path again -/

namespace Projection

/-- Once a path was seen, it makes no difference where it stands further on. -/
theorem aliasNames_filter {p : AttributePath} {seen : List AttributePath} (hp : p ∈ seen)
    (names : List NameRef) :
    aliasNames seen (names.filter fun name => !(name == .path p)) = aliasNames seen names := by
  induction names generalizing seen with
  | nil => rfl
  | cons name rest ih =>
      cases name with
      | faulty error => rw [List.filter_cons_of_pos (by simp)]; rfl
      | path q =>
          by_cases hq : q = p
          · subst hq
            rw [List.filter_cons_of_neg (by simp), ih hp, aliasNames, if_pos hp]
          · rw [List.filter_cons_of_pos (by simpa using hq), aliasNames, aliasNames, ih hp,
              ih (List.mem_cons_of_mem q hp)]

/-- The recursion is that of the removal, which shortens the list. -/
theorem aliasNames_eraseDups (seen : List AttributePath) : ∀ names : List NameRef,
    aliasNames seen names.eraseDups = aliasNames seen names
  | [] => rfl
  | .faulty error :: rest => by
      rw [List.eraseDups_cons]
      rfl
  | .path p :: rest => by
      have hrest : ∀ later : List AttributePath, p ∈ later →
          aliasNames later (rest.filter fun name => !(name == .path p)).eraseDups =
            aliasNames later rest := by
        intro later hp
        rw [aliasNames_eraseDups later, aliasNames_filter hp]
      rw [List.eraseDups_cons, aliasNames, aliasNames, hrest _ List.mem_cons_self]
      by_cases hp : p ∈ seen
      · rw [if_pos hp, if_pos hp, hrest seen hp]
      · rw [if_neg hp, if_neg hp]
termination_by names => names.length
decreasing_by exact Nat.lt_succ_of_le (List.length_filter_le _ _)

theorem aliased_distinct (tree : SourceProjection) : tree.distinct.aliased = tree.aliased := by
  have hempty : tree.names.eraseDups.isEmpty = tree.names.isEmpty := by
    rw [Bool.eq_iff_iff, List.isEmpty_iff, List.isEmpty_iff, Lane.eraseDups_eq_nil_iff]
  unfold aliased distinct
  rw [hempty, aliasNames_eraseDups]

end Projection

/-! ## Pieces -/

theorem PathStep.comma_not_mem_text (step : PathStep Nat) : ',' ∉ step.text.toList := by
  rcases step with n | i
  · simpa [text] using Numeral.not_mem_toDigits rfl n
  · simpa [text] using Numeral.not_mem_toDigits rfl i

theorem Path.comma_not_mem_text (path : Path Nat) : ',' ∉ path.text.toList := by
  intro h
  simp only [text, String.toList_append, String.toList_join, List.mem_append, List.mem_flatMap,
    List.mem_map] at h
  rcases h with (hmark | hnumber) | ⟨_, ⟨step, -, rfl⟩, hstep⟩
  · simp at hmark
  · exact Numeral.not_mem_toDigits rfl path.head (by simpa using hnumber)
  · exact step.comma_not_mem_text hstep

/-- The pieces of a projection text between its separators. -/
def Projection.pieces (text : String) : List String :=
  (text.split ", ").toList.map String.Slice.copy

/-- The piece is the text of one aliased path alone, which stands for the path. -/
def Expression.PieceIs (expression : Expression) (piece : String) (path : AttributePath) : Prop :=
  ∃ aliased : Path Nat, (∀ other : Path Nat, other.text = piece ↔ other = aliased) ∧
    expression.dictionary.path? aliased = some path

theorem Expression.PieceIs.path_eq {expression : Expression} {piece : String}
    {p q : AttributePath} (h : expression.PieceIs piece p) (k : expression.PieceIs piece q) :
    p = q := by
  rcases h with ⟨aliased, hunique, hpath⟩
  rcases k with ⟨other, hother, hpath'⟩
  obtain rfl := (hother aliased).1 ((hunique aliased).2 rfl)
  rw [hpath] at hpath'
  exact Option.some.inj hpath'

theorem Draft.leaves_projection {draft : Draft} {plain : PlainProjection}
    (h : draft.projection = some plain) : ∀ leaf ∈ plain.leaves, leaf ∈ draft.leaves := by
  intro leaf hleaf
  exact mem_leaves_iff.2 (.inr (.inr (.inr (.inl ⟨plain, h, hleaf⟩))))

/-- The text of distinct paths has one piece for each of them, with the numbers of its names. -/
theorem Draft.pieces_projectionText (table : Aliases) {paths : List AttributePath}
    (hne : paths ≠ []) :
    Projection.pieces (projectionText table ⟨paths⟩) =
      paths.map fun p => (table.numberPath p).text := by
  have htexts : projectionText table ⟨paths⟩ =
      ", ".intercalate (paths.map fun p => (table.numberPath p).text) := by
    rw [projectionText, Projection.tokens, Token.texts_separate]
    simp only [Projection.map, List.map_map, Function.comp_def, Path.texts_tokens]
    rfl
  rw [htexts, Projection.pieces]
  refine Text.split_intercalate (mt List.map_eq_nil_iff.1 hne) fun part hpart => ?_
  obtain ⟨p, -, rfl⟩ := List.mem_map.1 hpart
  exact (table.numberPath p).comma_not_mem_text

theorem Draft.pieceIs {draft : Draft} {plain : PlainProjection}
    (h : draft.projection = some plain) {p : AttributePath} (hp : p ∈ plain.names) :
    draft.expression.PieceIs (draft.aliases.numberPath p).text p := by
  refine ⟨draft.aliases.numberPath p, fun other => ⟨Path.text_injective, fun h => by rw [h]⟩,
    Dictionary.path?_numberPath fun leaf hleaf => draft.explains leaf ?_⟩
  exact leaves_projection h leaf (List.mem_flatMap.2 ⟨p, hp, hleaf⟩)

theorem Draft.nodup_pieces {draft : Draft} {plain : PlainProjection}
    (h : draft.projection = some plain) (hnodup : plain.names.Nodup) :
    (plain.names.map fun p => (draft.aliases.numberPath p).text).Nodup := by
  refine List.pairwise_map.2 (hnodup.imp_of_mem fun {p q} hp hq hne heq => hne ?_)
  have hpiece := pieceIs h hp
  rw [heq] at hpiece
  exact hpiece.path_eq (pieceIs h hq)

namespace Builder

variable {builder : Builder} {tree : SourceProjection}

theorem exists_pieces {expression : Expression}
    (hbuild : (builder.withProjection tree).build = .ok expression) :
    ∃ (text : String) (paths : List AttributePath), expression.projection = some text ∧
      tree.names = paths.map .path ∧
      List.Forall₂ expression.PieceIs (Projection.pieces text) paths.eraseDups ∧
      (Projection.pieces text).Nodup := by
  obtain ⟨-, draft, hchecked, -, rfl⟩ := build_eq_ok_iff.1 hbuild
  obtain ⟨plain, hplain, hdraft⟩ :=
    checked_mapM_some_eq_ok_iff.1 (checked_eq_ok_iff.1 hchecked).2.2.2.1
  obtain ⟨paths, hne, hnames, rfl⟩ := Projection.eq_of_checked hplain
  have hpieces := Draft.pieces_projectionText draft.aliases (mt Lane.eraseDups_eq_nil_iff.1 hne)
  refine ⟨Draft.projectionText draft.aliases ⟨paths.eraseDups⟩, paths, ?_, hnames, ?_, ?_⟩
  · change draft.projection.map _ = _
    rw [hdraft, Option.map_some]
  · rw [hpieces, List.forall₂_map_left_iff]
    exact List.forall₂_same.2 fun p hp => Draft.pieceIs hdraft hp
  · rw [hpieces]
    exact Draft.nodup_pieces hdraft (Lane.nodup_eraseDups paths)

theorem build_distinct (builder : Builder) (tree : SourceProjection) :
    (builder.withProjection tree.distinct).build = (builder.withProjection tree).build := by
  have htokens : (SourceTree.projection tree.distinct).tokens builder.limits =
      (SourceTree.projection tree).tokens builder.limits := by
    rw [SourceTree.tokens, SourceTree.tokens, tree.aliased_distinct]
  refine build_congr rfl fun kind => ?_
  cases kind with
  | projection =>
      exact congrArg (fun tokens => some <$> write builder.limits .projection tokens) htokens
  | condition => rfl
  | filter => rfl
  | keyCondition => rfl
  | update => rfl

theorem build_of_faulty {error : NameError} (h : .faulty error ∈ tree.names) :
    ∃ fault, (builder.withProjection tree).build = .error (.invalid fault) := by
  refine build_invalid_iff.2 ⟨⟨.projection, Option.some_ne_none tree⟩, fun hgood => ?_⟩
  obtain ⟨p, hp⟩ := (hgood.1.projection tree rfl).names _ h
  cases hp

/--
A projection lists each path once, where it was first requested.  The pieces of its text are aliased
paths, no two the same, and the names of the expression lead from them to the requested paths
without repetition.  Leaving repetitions out of the request changes nothing, and a path that is at
fault fails the build wherever it stands.
-/
theorem projection_pieces {names : List NameRef} (hmade : Projection.Made names tree)
    (builder : Builder) :
    (∀ expression, (builder.withProjection tree).build = .ok expression →
      ∃ (text : String) (paths : List AttributePath), expression.projection = some text ∧
        names = paths.map .path ∧
        List.Forall₂ expression.PieceIs (Projection.pieces text) paths.eraseDups ∧
        (Projection.pieces text).Nodup) ∧
    (builder.withProjection tree.distinct).build = (builder.withProjection tree).build ∧
    ((∃ error, .faulty error ∈ names) →
      ∃ fault, (builder.withProjection tree).build = .error (.invalid fault)) := by
  rw [← hmade.names_eq]
  refine ⟨fun _ => exists_pieces, build_distinct builder tree, ?_⟩
  intro h
  rcases h with ⟨error, hfaulty⟩
  exact build_of_faulty hfaulty

/-- Paths over two names, one a prefix of another, and two of them requested again. -/
def requested : List AttributePath :=
  [⟨"b", [.attribute "a", .index 1]⟩, ⟨"a", []⟩, ⟨"b", []⟩, ⟨"a", []⟩,
    ⟨"b", [.attribute "a", .index 1]⟩, ⟨"a", [.index 1]⟩]

/-- The paths, the last three of them added later. -/
def requesting : SourceProjection :=
  (Projection.ofFirst (.path ⟨"b", [.attribute "a", .index 1]⟩)
      [.path ⟨"a", []⟩, .path ⟨"b", []⟩]).addNames
    [.path ⟨"a", []⟩, .path ⟨"b", [.attribute "a", .index 1]⟩, .path ⟨"a", [.index 1]⟩]

/-- A condition that gives the name "a" its number before the projection is written. -/
def numbering : Builder where
  condition := some (.presence .attributeExists (.path ⟨"a", []⟩))

theorem numbering_projection_pieces :
    Projection.Made (requested.map .path) requesting ∧
    (∃ expression, (numbering.withProjection requesting).build = .ok expression ∧
      (numbering.withProjection requesting.distinct).build = .ok expression ∧
      expression.projection = some "#1.#0[1], #0, #1, #0[1]" ∧
      List.Forall₂ expression.PieceIs (Projection.pieces "#1.#0[1], #0, #1, #0[1]")
        [⟨"b", [.attribute "a", .index 1]⟩, ⟨"a", []⟩, ⟨"b", []⟩, ⟨"a", [.index 1]⟩]) ∧
    ∃ fault, (numbering.withProjection (requesting.addNames [.ofText "a["])).build =
      .error (.invalid fault) := by
  have hmade : Projection.Made (requested.map .path) requesting :=
    (.addNames _ (.ofFirst _ _) : Projection.Made _ requesting)
  have hbuild : (numbering.withProjection requesting).build = .ok
      { condition := some "attribute_exists(#0)", filter := none, keyCondition := none,
        projection := some "#1.#0[1], #0, #1, #0[1]", update := none,
        aliases := ⟨["a", "b"], []⟩ } := by rfl
  obtain ⟨hpieces, hdistinct, -⟩ := projection_pieces hmade numbering
  obtain ⟨text, paths, htext, hnames, hforall, -⟩ := hpieces _ hbuild
  cases htext
  obtain rfl := (List.map_inj_right fun _ _ h => NameRef.path.inj h).1 hnames
  have hfaulty := (projection_pieces (hmade.addNames [.ofText "a["]) numbering).2.2
  exact ⟨hmade, ⟨_, hbuild, hdistinct.trans hbuild, rfl, hforall⟩,
    hfaulty ⟨.malformed "a[" .unclosed, List.mem_append_right _ (List.mem_singleton.2 rfl)⟩⟩

end Builder

end DynamoExpr
