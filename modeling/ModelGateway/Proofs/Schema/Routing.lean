import ModelGateway.Proofs.Schema.Dispatch

/-!
# The table of routes

The routes of a document are the fields that it claims, in order, and after them the raw fields of
the root types that nothing claims.

* **Claims** (`Dispatch.addClaims_eq_ok_iff`, `Dispatch.addClaims_eq_error_iff`): the first claim
  whose field is taken ends the construction, with the route that has the field and the one that
  asks for it. If no field is claimed twice, all claims are added at the end.
* **Raw fields** (`Dispatch.addMissing_eq_append`): those that are not claimed are added, each once.
* **Documents** (`Dispatch.ofDocument_exact`): when a document has a table of routes, which one, and
  the conflict that keeps it from having one. Every mapped operation has its own route.
-/

namespace ModelGateway.Dispatch

variable {routes added : Entries Route} {claims more : List (String × Route)}

/-! ## Claims -/

/-- Claims are added if no field is taken, and then they stand at the end in their order. -/
theorem addClaims_eq_ok_iff (hroutes : routes.names.Nodup) :
    addClaims routes claims = .ok added ↔
      (Entries.names (routes ++ claims)).Nodup ∧ added = routes ++ claims := by
  induction claims generalizing routes with
  | nil =>
    rw [addClaims, List.append_nil, Except.ok.injEq, eq_comm]
    exact (and_iff_right hroutes).symm
  | cons claim rest ih =>
    obtain ⟨field, route⟩ := claim
    rw [addClaims]
    cases hget : routes.get? field with
    | some first =>
      -- the field is taken, so it repeats among the names
      constructor
      · intro h
        cases h
      · rintro ⟨hnodup, -⟩
        have htaken := Entries.name_mem_names (Entries.mem_of_get?_eq_some hget)
        rw [Entries.names, List.map_append, List.nodup_append] at hnodup
        exact absurd rfl (hnodup.2.2 field htaken field List.mem_cons_self)
    | none =>
      have hfree := Entries.get?_eq_none_iff.mp hget
      dsimp only
      rw [ih (Entries.nodup_names_insert hroutes field route), Entries.insert_of_not_mem hfree,
        List.append_assoc, List.singleton_append]

/-- Adding claims fails at the first one whose field is taken, by an earlier claim or before. -/
theorem addClaims_eq_error_iff (hroutes : routes.names.Nodup) {c : RouteConflict} :
    addClaims routes claims = .error c ↔
      ∃ before after, claims = before ++ (c.field, c.second) :: after ∧
        (Entries.names (routes ++ before)).Nodup ∧ (c.field, c.first) ∈ routes ++ before := by
  induction claims generalizing routes with
  | nil =>
    constructor
    · intro h
      cases h
    · rintro ⟨before, after, hclaims, -⟩
      exact absurd hclaims.symm (List.append_ne_nil_of_right_ne_nil _ (List.cons_ne_nil _ _))
  | cons claim rest ih =>
    obtain ⟨field, route⟩ := claim
    rw [addClaims]
    cases hget : routes.get? field with
    | some first =>
      constructor
      · intro h
        cases h
        refine ⟨[], rest, rfl, ?_, ?_⟩
        · rwa [List.append_nil]
        · rw [List.append_nil]
          exact Entries.mem_of_get?_eq_some hget
      · rintro ⟨before, after, hclaims, hnodup, hmem⟩
        cases before with
        | nil =>
          cases hclaims
          rw [List.append_nil] at hmem
          rw [(Entries.get?_eq_some_iff_mem hroutes).mpr hmem] at hget
          cases hget
          rfl
        | cons claim before =>
          -- an earlier conflict would repeat the field among the names
          cases hclaims
          have htaken := Entries.name_mem_names (Entries.mem_of_get?_eq_some hget)
          rw [Entries.names, List.map_append, List.nodup_append] at hnodup
          exact absurd rfl (hnodup.2.2 field htaken field List.mem_cons_self)
    | none =>
      have hfree := Entries.get?_eq_none_iff.mp hget
      dsimp only
      rw [ih (Entries.nodup_names_insert hroutes field route), Entries.insert_of_not_mem hfree]
      simp only [List.append_assoc, List.singleton_append]
      constructor
      · rintro ⟨before, after, rfl, hnodup, hmem⟩
        exact ⟨(field, route) :: before, after, rfl, hnodup, hmem⟩
      · rintro ⟨before, after, hclaims, hnodup, hmem⟩
        cases before with
        | nil =>
          cases hclaims
          rw [List.append_nil] at hmem
          exact absurd (Entries.name_mem_names hmem) hfree
        | cons claim before =>
          cases hclaims
          exact ⟨before, after, rfl, hnodup, hmem⟩

/-! ## Raw fields -/

/-- Missing routes are added at the end, each once, if a field has but one route among them. -/
theorem addMissing_eq_append (hmore : ∀ a ∈ more, ∀ b ∈ more, a.1 = b.1 → a = b) :
    addMissing routes more = routes ++ (more.filter fun e => e.1 ∉ routes.names).eraseDups := by
  induction more generalizing routes with
  | nil => simp [addMissing]
  | cons e rest ih =>
    have hrest : ∀ a ∈ rest, ∀ b ∈ rest, a.1 = b.1 → a = b := fun a ha b hb =>
      hmore a (List.mem_cons_of_mem _ ha) b (List.mem_cons_of_mem _ hb)
    have hstep : addMissing routes (e :: rest) =
        addMissing (if routes.contains e.1 then routes else routes.insert e.1 e.2) rest := rfl
    rw [hstep, Entries.contains]
    by_cases htaken : e.1 ∈ routes.names
    · have hsome : (routes.get? e.1).isSome = true := by
        rw [Option.isSome_iff_ne_none, ne_eq, Entries.get?_eq_none_iff, not_not]
        exact htaken
      rw [if_pos hsome, ih hrest, List.filter_cons_of_neg (by simpa using htaken)]
    · have hnone : ¬(routes.get? e.1).isSome = true := by
        simp [Entries.get?_eq_none_iff.mpr htaken]
      -- of the later fields, those that have been added now are the ones of the same route
      have hlater : rest.filter (fun a => a.1 ∉ Entries.names (routes ++ [(e.1, e.2)])) =
          (rest.filter fun a => a.1 ∉ routes.names).filter fun a => !a == e := by
        rw [List.filter_filter]
        refine List.filter_congr fun a ha => ?_
        have hsame : a.1 = e.1 ↔ a = e :=
          ⟨hmore a (List.mem_cons_of_mem _ ha) e List.mem_cons_self, congrArg Prod.fst⟩
        have hnames : Entries.names (routes ++ [(e.1, e.2)]) = routes.names ++ [e.1] :=
          List.map_append
        rw [Bool.eq_iff_iff, Bool.and_eq_true, decide_eq_true_iff, decide_eq_true_iff, hnames,
          List.mem_append, List.mem_singleton, hsame]
        simp [and_comm]
      rw [if_neg hnone, Entries.insert_of_not_mem htaken, ih hrest, hlater,
        List.filter_cons_of_pos (by simpa using htaken), List.eraseDups_cons, List.append_assoc,
        List.singleton_append]

/-- The route of a raw field is given by its name. -/
theorem eq_of_mem_rawFields {d : Document} {a b : String × Route} (ha : a ∈ rawFields d)
    (hb : b ∈ rawFields d) (hname : a.1 = b.1) : a = b := by
  have hroute : ∀ e ∈ rawFields d, ∃ operation, RawOperation.ofField? e.1 = some operation ∧
      e.2 = .raw operation := by
    intro e he
    obtain ⟨root, -, he⟩ := List.mem_flatMap.mp he
    cases ht : d.objectType? root with
    | none => simp [ht] at he
    | some t =>
      simp only [ht] at he
      obtain ⟨f, -, he⟩ := List.mem_filterMap.mp he
      obtain ⟨operation, hoperation, rfl⟩ := Option.map_eq_some_iff.mp he
      exact ⟨operation, hoperation, rfl⟩
  obtain ⟨x, hx, hax⟩ := hroute a ha
  obtain ⟨y, hy, hby⟩ := hroute b hb
  rw [hname, hy] at hx
  cases hx
  exact Prod.ext hname (hax.trans hby.symm)

/-! ## Documents -/

variable {d : Document}

/-- The fields that a document claims: those of the mapped operations, then the names of the
operations without a model. -/
theorem names_claims (d : Document) :
    Entries.names (Dispatch.claims d) =
      d.operations.map (·.2.2) ++ (d.otherReads ++ d.otherWrites) := by
  simp [Entries.names, Dispatch.claims, Document.otherOperations, Function.comp_def]

/-- The raw fields of the root types that a document does not claim, each once. -/
def unclaimedRaw (d : Document) : List (String × Route) :=
  ((rawFields d).filter fun e => e.1 ∉ Entries.names (Dispatch.claims d)).eraseDups

/-- A document has a table of routes if it claims no field twice: its claims, then the raw fields
that it does not claim. -/
theorem ofDocument_eq_ok_iff {dispatch : Dispatch} :
    ofDocument d = .ok dispatch ↔
      (Entries.names (Dispatch.claims d)).Nodup ∧
        dispatch.routes = Dispatch.claims d ++ unclaimedRaw d := by
  have hempty : (Entries.names ([] : Entries Route)).Nodup := List.nodup_nil
  unfold ofDocument
  cases hclaims : addClaims [] (Dispatch.claims d) with
  | error c =>
    constructor
    · intro h
      cases h
    · rintro ⟨hnodup, -⟩
      have hadd : addClaims [] (Dispatch.claims d) = .ok (Dispatch.claims d) :=
        (addClaims_eq_ok_iff hempty).mpr ⟨hnodup, rfl⟩
      rw [hadd] at hclaims
      cases hclaims
  | ok claimed =>
    obtain ⟨hnodup, rfl⟩ :
        (Entries.names (Dispatch.claims d)).Nodup ∧ claimed = Dispatch.claims d :=
      (addClaims_eq_ok_iff hempty).mp hclaims
    have hraw : ∀ a ∈ rawFields d, ∀ b ∈ rawFields d, a.1 = b.1 → a = b := fun _ ha _ hb =>
      eq_of_mem_rawFields ha hb
    have hroutes : addMissing (Dispatch.claims d) (rawFields d) = _ := addMissing_eq_append hraw
    rw [and_iff_right hnodup]
    obtain ⟨routes⟩ := dispatch
    simp [bind, Except.bind, pure, Except.pure, hroutes, unclaimedRaw, eq_comm]

/-- A document has no table of routes because of the first claim of a field that an earlier one
claims. -/
theorem ofDocument_eq_error_iff {c : RouteConflict} :
    ofDocument d = .error c ↔
      ∃ before after, Dispatch.claims d = before ++ (c.field, c.second) :: after ∧
        (Entries.names before).Nodup ∧ (c.field, c.first) ∈ before := by
  have hempty : (Entries.names ([] : Entries Route)).Nodup := List.nodup_nil
  have hadd : addClaims [] (Dispatch.claims d) = .error c ↔ _ := addClaims_eq_error_iff hempty
  simp only [List.nil_append] at hadd
  rw [← hadd]
  unfold ofDocument
  cases addClaims [] (Dispatch.claims d) with
  | error c' => simp [bind, Except.bind]
  | ok claimed => simp [bind, Except.bind, pure, Except.pure]

/-- A claim has its route in the table of a document. -/
theorem route_of_mem_claims {dispatch : Dispatch} (h : ofDocument d = .ok dispatch)
    {field : String} {route : Route} (hclaim : (field, route) ∈ Dispatch.claims d) :
    dispatch.route field = .ok route := by
  obtain ⟨hnodup, hroutes⟩ := ofDocument_eq_ok_iff.mp h
  have hget : dispatch.routes.get? field = some route := by
    rw [hroutes, Entries.get?_append, (Entries.get?_eq_some_iff_mem hnodup).mpr hclaim,
      Option.some_or]
  rw [Dispatch.route, hget]

/-- The route of a mapped operation: the client operation that the id stands for, on the delegate of
the model, or none. -/
theorem ofMapping_eq (model id : String) :
    Route.ofMapping model id =
      match Operation.ofId? id with
      | some operation => .model ⟨model, id, operation, Text.lowerFirst model⟩
      | none => .unsupported id := by
  unfold Route.ofMapping ModelRoute.ofId
  cases Operation.ofId? id <;> rfl

/-- A document has a table of routes exactly if it claims no field twice. If it does, the conflict
is at the first claim of a field that was claimed before, between the owners of the two. Otherwise
the table lists the claims in order and then the raw fields of the root types that are not claimed,
and the field of a mapped operation is answered by this operation on its model, or refused under the
id if the client has no such operation. -/
theorem ofDocument_exact (d : Document) :
    ((∃ dispatch, ofDocument d = .ok dispatch) ↔
      (d.operations.map (·.2.2) ++ (d.otherReads ++ d.otherWrites)).Nodup) ∧
    (∀ e, (ofDocument d).mapError RouteConflict.toError = .error e ↔
      ∃ before field first second after,
        Dispatch.claims d = before ++ (field, second) :: after ∧ (Entries.names before).Nodup ∧
          (field, first) ∈ before ∧ e = .duplicateRootField field first.owner second.owner) ∧
    ∀ dispatch, ofDocument d = .ok dispatch →
      dispatch.routes = Dispatch.claims d ++ unclaimedRaw d ∧
      ∀ model id field, (model, id, field) ∈ d.operations →
        dispatch.route field = .ok
          (match Operation.ofId? id with
            | some operation => .model ⟨model, id, operation, Text.lowerFirst model⟩
            | none => .unsupported id) := by
  refine ⟨?_, ?_, ?_⟩
  · rw [← names_claims]
    constructor
    · rintro ⟨dispatch, h⟩
      exact (ofDocument_eq_ok_iff.mp h).1
    · intro hnodup
      exact ⟨⟨Dispatch.claims d ++ unclaimedRaw d⟩, ofDocument_eq_ok_iff.mpr ⟨hnodup, rfl⟩⟩
  · intro e
    constructor
    · intro h
      cases hconflict : ofDocument d with
      | ok dispatch =>
        rw [hconflict] at h
        cases h
      | error c =>
        rw [hconflict] at h
        cases h
        obtain ⟨before, after, hclaims, hnodup, hfirst⟩ := ofDocument_eq_error_iff.mp hconflict
        exact ⟨before, c.field, c.first, c.second, after, hclaims, hnodup, hfirst, rfl⟩
    · rintro ⟨before, field, first, second, after, hclaims, hnodup, hfirst, rfl⟩
      have hconflict : ofDocument d = .error ⟨field, first, second⟩ :=
        ofDocument_eq_error_iff.mpr ⟨before, after, hclaims, hnodup, hfirst⟩
      rw [hconflict]
      rfl
  · intro dispatch h
    refine ⟨(ofDocument_eq_ok_iff.mp h).2, ?_⟩
    intro model id field hop
    rw [← ofMapping_eq]
    exact route_of_mem_claims h
      (List.mem_append_left _ (List.mem_map.mpr ⟨(model, id, field), hop, rfl⟩))

/-! ## Posts -/

namespace Posts

/-- A field that holds a text. -/
def text (name : String) : OutputField where
  name := name
  arguments := []
  isNullable := true
  type := { typeName := "String", group := none, location := .scalar, isList := false }

/-- A document with two mapped operations, one of them unknown to clients, and an operation without
a model. Both root types declare raw fields. -/
def document (unknown : String) : Document where
  models := []
  outputs := ⟨[{ name := "Query", fields := [text "queryRaw", text "posts", text "queryRaw"] },
    { name := "Mutation", fields := [text "executeRaw", text "queryRaw"] }], []⟩
  enums := ⟨[], []⟩
  mappings := [
    { model := "Post", plural := none, operations := [("findMany", "posts"), ("explode", unknown)] }]
  otherReads := []
  otherWrites := ["executeRaw"]

/-- The table of routes if the unknown operation has a field of its own. -/
def routing : Dispatch where
  routes := [
    ("posts", .model ⟨"Post", "findMany", .findMany, "post"⟩),
    ("explodePost", .unsupported "explode"),
    ("executeRaw", .raw .execute),
    ("queryRaw", .raw .query)]

end Posts

/-- The raw field that is claimed keeps its place among the claims, and the one that is declared
three times is added once. Where the unknown operation asks for the field of another, the table
fails for the owners of the two. -/
theorem posts_routes_exact :
    ofDocument (Posts.document "explodePost") = .ok Posts.routing ∧
      Posts.routing.routes =
        Dispatch.claims (Posts.document "explodePost") ++
          unclaimedRaw (Posts.document "explodePost") ∧
      Posts.routing.route "posts" = .ok (.model ⟨"Post", "findMany", .findMany, "post"⟩) ∧
      (ofDocument (Posts.document "posts")).mapError RouteConflict.toError =
        .error (.duplicateRootField "posts" "Post" "explode") := by
  have hok : ofDocument (Posts.document "explodePost") = .ok Posts.routing := rfl
  obtain ⟨hroutes, hmapped⟩ := (ofDocument_exact (Posts.document "explodePost")).2.2 _ hok
  have hposts := hmapped "Post" "findMany" "posts" List.mem_cons_self
  refine ⟨hok, hroutes, hposts, ?_⟩
  refine ((ofDocument_exact (Posts.document "posts")).2.1 _).mpr ?_
  exact ⟨[("posts", .model ⟨"Post", "findMany", .findMany, "post"⟩)], "posts",
    .model ⟨"Post", "findMany", .findMany, "post"⟩, .unsupported "explode",
    [("executeRaw", .raw .execute)], rfl, List.nodup_singleton _, List.mem_singleton_self _, rfl⟩

end ModelGateway.Dispatch
