import ModelGateway.Gateway.Resolve
import ModelGateway.Proofs.Store.Address
import ModelGateway.Proofs.Store.Delegate
import ModelGateway.Proofs.Store.Relation
import ModelGateway.Store.Client

/-!
# Relations read later

A relation of a record can be had in two ways: with the record, through `include`, or later, through
a point lookup by the key of the record.

* **Keys** (`Store.project_noArguments`): a record that is shaped without arguments has all columns
  of the stored one, so it gives the same key.
* **Both ways** (`Gateway.readRelation_eq_include`): in a reachable store they give the same value
  or the same error, for any arguments.
-/

namespace ModelGateway

namespace Store

variable {s : Store} {t : Table} {r : Record} {f : Field} {e : RowKey × Row} {condition : Json}
  {delegate : String}

/-- Without arguments a record is shaped into all its columns. -/
theorem project_noArguments : s.project t r (.obj []) = .ok (.obj (t.columns r)) := by
  simp [project, selectedPart, includedPart, shapeOf]

/-- A relation of the record that a point lookup finds is read from this record. -/
theorem relation_of_findRow (ht : s.tableFor delegate = .ok t)
    (hf : t.model.field? f.name = some f) (hrel : f.isRelation = true)
    (hrow : t.findRow (some condition) = .ok (some e)) (args : Json) :
    s.relation delegate (.obj [("where", condition)]) f.name args =
      s.readRelation t e.2.data f args := by
  apply relation_eq_readRelation ht hf hrel
  exact hrow

end Store

/-! ## Both ways -/

namespace Gateway

variable {d : Document} {live : LiveStore} {t : Table} {model : String} {e : RowKey × Row}
  {f : Field}

/-- Reading a relation of a shaped record through a point lookup gives what including the relation
gives. -/
theorem readRelation_eq_include (hd : d.WellFormed)
    (hn : (d.models.map fun m => Text.lowerFirst m.name).Nodup)
    (h : Store.Reachable d live.store) (ht : live.store.tableOf model = .ok t)
    (hm : t.model.Addressable) (he : e ∈ t.rows) (hr : t.model.KeyGiven e.2.data)
    (hf : f ∈ t.model.fields) (hrel : f.isRelation = true) (supplies : Nat → Supply)
    (args : Entries Json) :
    ∃ reader record, RelationReader.ofModel? t.model = some reader ∧
      live.store.project t e.2.data (.obj []) = .ok (.obj record) ∧
      (readRelation (LiveStore.client supplies) reader record f.name (.obj args) live).2.map some =
        ((live.store.project t e.2.data (.obj [("include", .obj [(f.name, .obj args)])])).map
          (·.get? f.name)).mapError Fault.toClientError := by
  have hs := h.sound hd
  have hname : t.model.name = model := hs.named model t ht
  have hlast := Document.lastOfDelegate_of_nodup hn (hs.declared model t ht)
  have hfor : live.store.tableFor (Text.lowerFirst t.model.name) = .ok t :=
    (h.tableFor_lowerFirst_iff hd (hname ▸ ht)).mpr hlast
  obtain ⟨key, hkey, hrow⟩ := (h.unique hd model t ht).findRow_key (hs.table model t ht) hm he hr
  have hfield := Model.field?_eq_some_of_mem hm.names_nodup hf
  refine ⟨_, t.columns e.2.data, by rw [RelationReader.ofModel?, hkey, Option.map_some],
    Store.project_noArguments, ?_⟩
  -- the lookup by the key of the shaped record is that by the key of the stored one
  rw [← RecordKey.filter_columns hm hkey] at hrow
  have hincluded :
      (live.store.project t e.2.data (.obj [("include", .obj [(f.name, .obj args)])])).map
        (·.get? f.name) = (live.store.readRelation t e.2.data f (.obj args)).map some :=
    Store.shownValue_relation (by simp) (by simp [isWanted]) hfield hrel
  rw [hincluded]
  simp only [readRelation, LiveStore.client, Client.withoutRaw, LiveStore.relation, LiveStore.call,
    RelationReader.lookup]
  rw [Store.relation_of_findRow hfor hfield hrel hrow]
  cases live.store.readRelation t e.2.data f (.obj args) <;> rfl

/-! ## Players -/

namespace Players

/-- A relation between teams and players. -/
def relation (name typeName : String) (isList : Bool) : Field :=
  { Store.Seats.column name false with
    kind := .object
    typeName := typeName
    isList := isList
    relationName := some "PlayerToTeam" }

/-- A team has players. -/
def team : Model where
  name := "Team"
  fields := [{ Store.Seats.column "id" true with isId := true }, relation "players" "Player" true]
  primaryKey := none

/-- A player may have a team. -/
def player : Model where
  name := "Player"
  fields := [
    { Store.Seats.column "id" true with isId := true },
    Store.Seats.column "teamId" false,
    { relation "team" "Team" false with fromFields := ["teamId"], toFields := ["id"] }]
  primaryKey := none

/-- The document with teams and players. -/
def document : Document where
  models := [team, player]
  outputs := ⟨[], []⟩
  enums := ⟨[], []⟩
  mappings := []
  otherReads := []
  otherWrites := []

/-- The data of a player. -/
def data (id team : Nat) : Json :=
  .obj [("id", .ofNat id), ("teamId", .ofNat team)]

/-- A team with two players. -/
def signedUp : LiveStore where
  store := [
    Call.execute "team" .create (.obj [("data", .obj [("id", .ofNat 1)])]),
    .execute "player" .create (.obj [("data", data 1 1)]),
    .execute "player" .create (.obj [("data", data 2 1)])].foldl
      (fun s c => s.after Store.Seats.supply c) (Store.ofModels document.models)
  calls := 3

/-- The columns of teams and players have no defaults. -/
theorem document_wellFormed : document.WellFormed := by
  simp [Document.WellFormed, Model.WellFormed, Field.WellFormed, document, team, player, relation,
    Store.Seats.column]

/-- A team is addressed by its number. -/
theorem addressable_team : team.Addressable where
  identified := by decide
  names_nodup := by decide
  declared := by decide
  columns := by decide
  no_combinator key hkey := by
    cases hkey
    decide
  no_field name parts hkey := by cases hkey

end Players

/-- The second of the two players of a team is read later as with the team. -/
theorem players_readRelation_eq_include :
    let live := Players.signedUp
    let t := live.store.current (Table.empty Players.team)
    let e : RowKey × Row := (.values [.ofNat 1], ⟨1, [("id", .ofNat 1)]⟩)
    let f := Players.relation "players" "Player" true
    let args : Entries Json := [("where", .obj [("id", .ofNat 2)])]
    let supplies := fun _ => Store.Seats.supply
    Players.document.WellFormed ∧
      (Players.document.models.map fun m => Text.lowerFirst m.name).Nodup ∧
      Store.Reachable Players.document live.store ∧ live.store.tableOf "Team" = .ok t ∧
      t.model.Addressable ∧ e ∈ t.rows ∧ t.model.KeyGiven e.2.data ∧
      f ∈ t.model.fields ∧ f.isRelation = true ∧
      live.store.readRelation t e.2.data f (.obj args) = .ok (.arr [Players.data 2 1]) ∧
      ∃ reader record, RelationReader.ofModel? t.model = some reader ∧
        live.store.project t e.2.data (.obj []) = .ok (.obj record) ∧
        (readRelation (LiveStore.client supplies) reader record f.name (.obj args) live).2.map
            some =
          ((live.store.project t e.2.data (.obj [("include", .obj [(f.name, .obj args)])])).map
            (·.get? f.name)).mapError Fault.toClientError := by
  intro live t e f args supplies
  have hn : (Players.document.models.map fun m => Text.lowerFirst m.name).Nodup := by decide
  have hs : Store.Reachable Players.document live.store :=
    Store.Reachable.start.foldl Store.Seats.supply
      (by simp [Call.WellFormed, Players.data, Entries.names])
  have ht : live.store.tableOf "Team" = .ok t := rfl
  have hm : t.model.Addressable := Players.addressable_team
  have he : e ∈ t.rows := List.mem_singleton.mpr rfl
  have hr : t.model.KeyGiven e.2.data := by decide
  have hf : f ∈ t.model.fields := List.mem_cons_of_mem _ List.mem_cons_self
  have hrel : f.isRelation = true := rfl
  have hread : live.store.readRelation t e.2.data f (.obj args) =
      .ok (.arr [Players.data 2 1]) := rfl
  exact ⟨Players.document_wellFormed, hn, hs, ht, hm, he, hr, hf, hrel, hread,
    readRelation_eq_include Players.document_wellFormed hn hs ht hm he hr hf hrel supplies args⟩

end Gateway

end ModelGateway
