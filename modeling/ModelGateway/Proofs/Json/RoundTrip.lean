import Mathlib.Data.List.Forall2
import Mathlib.Tactic.SplitIfs
import ModelGateway.Json.Printer
import ModelGateway.Json.Reader
import ModelGateway.Proofs.Json.Entries

/-!
# Reading what was printed

The text of a value without numbers reads back as the value, if it is not nested too deeply
(`Json.Worded.read?_text`).

* **Quotes** (`Json.Token.spells_quoted`): a text in quotes is one token, whatever its characters
  are.
* **Tokens** (`Json.Worded.spells`): the text of a value consists of the value's tokens.
* **Trees** (`Json.Worded.builds`): the tokens of a value are built into its tree, wherever a value
  is awaited.
-/

namespace ModelGateway

namespace Json

/-! ## Values -/

/-- A value without numbers, with at most so many lists and objects inside each other, whose objects
have each name once. -/
inductive Worded : Nat → Json → Prop
  | null {depth : Nat} : Worded depth .null
  | bool {depth : Nat} (b : Bool) : Worded depth (.bool b)
  | str {depth : Nat} (s : String) : Worded depth (.str s)
  | arr {depth : Nat} {items : List Json} (parts : ∀ x ∈ items, Worded depth x) :
      Worded (depth + 1) (.arr items)
  | obj {depth : Nat} {entries : List (String × Json)} (names : (Entries.names entries).Nodup)
      (parts : ∀ e ∈ entries, Worded depth e.2) : Worded (depth + 1) (.obj entries)

mutual

/-- The tokens of a value. -/
def tokens : Json → List Token
  | .null => [.word .null]
  | .bool b => [.word (.bool b)]
  | .num n => [.number (some n)]
  | .str s => [.text (some s)]
  | .arr items => .openList :: [Token.comma].intercalate (itemTokens items) ++ [.closeList]
  | .obj entries => .openObject :: [Token.comma].intercalate (entryTokens entries) ++ [.closeObject]

/-- The tokens of items. -/
def itemTokens : List Json → List (List Token)
  | [] => []
  | x :: xs => tokens x :: itemTokens xs

/-- The tokens of entries. -/
def entryTokens : List (String × Json) → List (List Token)
  | [] => []
  | (k, x) :: xs => (.text (some k) :: .colon :: tokens x) :: entryTokens xs

end

mutual

/-- The tree of a value inside so many lists and objects. -/
def tree (level : Nat) : Json → Source
  | .null => .null
  | .bool b => .bool b
  | .num n => .num (some n)
  | .str s => .str (some s)
  | .arr items => .arr (level + 1) (itemTrees (level + 1) items)
  | .obj entries => .obj (level + 1) (entryTrees (level + 1) entries)

/-- The trees of items. -/
def itemTrees (level : Nat) : List Json → List Source
  | [] => []
  | x :: xs => tree level x :: itemTrees level xs

/-- The trees of entries. -/
def entryTrees (level : Nat) : List (String × Json) → List (Option String × Source)
  | [] => []
  | (k, x) :: xs => (some k, tree level x) :: entryTrees level xs

end

/-! ## Quotes -/

/-- The two digits of a control character are read back. -/
theorem hexNumber?_control {n : Nat} (h : n < 32) :
    Text.hexNumber? ['0', '0', hexDigit (n / 16), hexDigit (n % 16)] = some n := by
  revert n
  decide

namespace Token

/-- Characters spell tokens if they are scanned as these, whatever follows. -/
def Spells (cs : List Char) (tokens : List Token) : Prop :=
  ∀ out rest, scan .gap out (cs ++ rest) = scan .gap (tokens.reverse ++ out) rest

variable {out : List Token} {rest : List Char}

/-- Inside quotes a character that is written for a text is read back. -/
theorem scan_quotedChar (c : Char) (seen : List Char) :
    scan (.quotes (some seen) none) out (quotedChar c ++ rest) =
      scan (.quotes (some (c :: seen)) none) out rest := by
  unfold quotedChar
  split_ifs with hquote hslash hline hreturn htab hback hfeed hcontrol
  · rw [hquote]
    rfl
  · rw [hslash]
    rfl
  · rw [hline]
    rfl
  · rw [hreturn]
    rfl
  · rw [htab]
    rfl
  · have hc : c = Char.ofNat 8 := by rw [← hback, Char.ofNat_toNat]
    rw [hc]
    rfl
  · have hc : c = Char.ofNat 12 := by rw [← hfeed, Char.ofNat_toNat]
    rw [hc]
    rfl
  · -- any other control character is written by its number
    have hunit : takeUnit (some seen) none c.toNat = .quotes (some (c :: seen)) none := by
      unfold takeUnit
      dsimp only
      rw [if_neg (by omega), if_neg (by omega), Char.ofNat_toNat]
      rfl
    simp only [List.cons_append, List.nil_append]
    rw [scan, hexNumber?_control hcontrol]
    dsimp only
    rw [hunit]
  · rw [List.singleton_append, scan]
    · rw [if_neg hquote, if_neg hcontrol]
      rfl
    · intro _ _ _ _ _ hc _
      exact hslash hc
    · intro _ _ hc _
      exact hslash hc

/-- Inside quotes the characters that are written for a text are read back. -/
theorem scan_quotedChars (cs seen : List Char) :
    scan (.quotes (some seen) none) out (cs.flatMap quotedChar ++ rest) =
      scan (.quotes (some (cs.reverse ++ seen)) none) out rest := by
  induction cs generalizing seen with
  | nil => rfl
  | cons c cs ih =>
    rw [List.flatMap_cons, List.append_assoc, scan_quotedChar, ih, List.reverse_cons,
      List.append_assoc, List.singleton_append]

/-- A text in quotes is one token. -/
theorem spells_quoted (s : String) : Spells (quoted s).toList [.text (some s)] := by
  intro out rest
  unfold quoted
  rw [String.toList_ofList, List.append_assoc, List.cons_append]
  change scan (.quotes (some []) none) out _ = _
  rw [scan_quotedChars, List.append_nil]
  change scan .gap (.text (some (String.ofList s.toList.reverse.reverse)) :: out) rest = _
  rw [List.reverse_reverse, String.ofList_toList]
  rfl

namespace Spells

variable {cs cs' : List Char} {ts ts' : List Token}

/-- Nothing spells nothing. -/
theorem nil : Spells [] [] :=
  fun _ _ => rfl

/-- One spelling after the other. -/
theorem append (h : Spells cs ts) (h' : Spells cs' ts') : Spells (cs ++ cs') (ts ++ ts') := by
  intro out rest
  rw [List.append_assoc, h, h', List.reverse_append, List.append_assoc]

/-- A comma. -/
theorem comma : Spells [','] [.comma] :=
  fun _ _ => rfl

/-- Spellings with commas between them. -/
theorem intercalate {css : List (List Char)} {tss : List (List Token)}
    (h : List.Forall₂ Spells css tss) :
    Spells ([','].intercalate css) ([Token.comma].intercalate tss) := by
  induction h with
  | nil => exact nil
  | cons hfirst hrest ih =>
    cases hrest with
    | nil => simpa using hfirst
    | cons _ _ =>
      rw [List.intercalate_cons_cons, List.intercalate_cons_cons]
      exact (hfirst.append comma).append ih

/-- Spelling between brackets or braces. -/
theorem enclosed {c c' : Char} {t t' : Token} (h : Spells cs ts) (hopen : Spells [c] [t])
    (hclose : Spells [c'] [t']) : Spells (c :: cs ++ [c']) (t :: ts ++ [t']) :=
  (hopen.append h).append hclose

end Spells

end Token

/-- The texts of items are those of each. -/
theorem itemTexts_eq (items : List Json) : itemTexts items = items.map text := by
  induction items with
  | nil => rfl
  | cons x rest ih => rw [itemTexts, ih, List.map_cons]

/-- The texts of entries are those of each. -/
theorem entryTexts_eq (entries : List (String × Json)) :
    entryTexts entries = entries.map fun e => quoted e.1 ++ ":" ++ e.2.text := by
  induction entries with
  | nil => rfl
  | cons e rest ih => rw [entryTexts, ih, List.map_cons]

/-- The tokens of items are those of each. -/
theorem itemTokens_eq (items : List Json) : itemTokens items = items.map tokens := by
  induction items with
  | nil => rfl
  | cons x rest ih => rw [itemTokens, ih, List.map_cons]

/-- The tokens of entries are those of each. -/
theorem entryTokens_eq (entries : List (String × Json)) :
    entryTokens entries = entries.map fun e => .text (some e.1) :: .colon :: e.2.tokens := by
  induction entries with
  | nil => rfl
  | cons e rest ih => rw [entryTokens, ih, List.map_cons]

/-- The text of a value without numbers consists of the tokens of the value. -/
theorem Worded.spells {depth : Nat} {v : Json} (h : Worded depth v) :
    Token.Spells v.text.toList v.tokens := by
  induction h with
  | null => exact fun _ _ => rfl
  | bool b =>
    cases b with
    | false => exact fun _ _ => rfl
    | true => exact fun _ _ => rfl
  | str s => exact Token.spells_quoted s
  | @arr depth items parts ih =>
    have hitems : List.Forall₂ Token.Spells (items.map fun x => x.text.toList)
        (items.map tokens) := by
      rw [List.forall₂_map_left_iff, List.forall₂_map_right_iff, List.forall₂_same]
      exact ih
    have htext : (Json.arr items).text.toList =
        '[' :: [','].intercalate (items.map fun x => x.text.toList) ++ [']'] := by
      rw [text, itemTexts_eq, String.toList_append, String.toList_append,
        String.toList_intercalate, List.map_map]
      rfl
    rw [htext, tokens, itemTokens_eq]
    exact (Token.Spells.intercalate hitems).enclosed (fun _ _ => rfl) (fun _ _ => rfl)
  | @obj depth entries names parts ih =>
    have hentries : List.Forall₂ Token.Spells
        (entries.map fun e => (quoted e.1).toList ++ ':' :: e.2.text.toList)
        (entries.map fun e => .text (some e.1) :: .colon :: e.2.tokens) := by
      rw [List.forall₂_map_left_iff, List.forall₂_map_right_iff, List.forall₂_same]
      intro e he
      have hcolon : Token.Spells [':'] [.colon] := fun _ _ => rfl
      exact (Token.spells_quoted e.1).append (hcolon.append (ih e he))
    have htext : (Json.obj entries).text.toList = Char.ofNat 0x7b :: [','].intercalate
        (entries.map fun e => (quoted e.1).toList ++ ':' :: e.2.text.toList) ++
          [Char.ofNat 0x7d] := by
      have hentry : ∀ e : String × Json, (quoted e.1 ++ ":" ++ e.2.text).toList =
          (quoted e.1).toList ++ ':' :: e.2.text.toList := by
        intro e
        rw [String.toList_append, String.toList_append, List.append_assoc]
        rfl
      rw [text, entryTexts_eq, String.toList_append, String.toList_append,
        String.toList_intercalate, List.map_map]
      simp only [Function.comp_def, hentry]
      rfl
    rw [htext, tokens, entryTokens_eq]
    exact (Token.Spells.intercalate hentries).enclosed (fun _ _ => rfl) (fun _ _ => rfl)

/-! ## Trees -/

namespace Building

/-- Where a value is awaited, a token that does not close a list starts one. -/
theorem step_eq_startValue? {frames : List Frame} {awaited : Awaited} {token : Token}
    (h : awaited = .value ∨ awaited = .firstItem ∧ token ≠ .closeList) :
    step ⟨frames, awaited⟩ token = startValue? frames token := by
  rcases h with rfl | ⟨rfl, hne⟩
  · unfold step
    split <;> simp_all
  · unfold step
    split <;> simp_all

/-- Tokens are built into a tree wherever a value is awaited. The tree may depend on how many lists
and objects are open. -/
def Builds (tokens : List Token) (tree : Nat → Source) : Prop :=
  ∀ frames awaited, awaited = .value ∨ awaited = .firstItem →
    tokens.foldlM step ⟨frames, awaited⟩ = some (place frames (tree frames.length))

/-- A token that is a value on its own. -/
theorem builds_singleton {token : Token} {tree : Source} (hne : token ≠ .closeList)
    (h : ∀ frames, startValue? frames token = some (place frames tree)) :
    Builds [token] fun _ => tree := by
  intro frames awaited hawaited
  have hstep : step ⟨frames, awaited⟩ token = some (place frames tree) := by
    rw [step_eq_startValue? (hawaited.imp_right fun h => ⟨h, hne⟩), h]
  rw [List.foldlM_cons, hstep]
  rfl

/-- Items are built into an open list. -/
theorem foldlM_items {items : List Json}
    (h : ∀ x ∈ items, Builds x.tokens fun level => x.tree level) (hne : items ≠ [])
    (outer : List Frame) (done : List Source) (awaited : Awaited)
    (hawaited : awaited = .value ∨ awaited = .firstItem) :
    ([Token.comma].intercalate (itemTokens items)).foldlM step ⟨.list done :: outer, awaited⟩ =
      some ⟨.list ((itemTrees (outer.length + 1) items).reverse ++ done) :: outer, .comma⟩ := by
  induction items generalizing done awaited with
  | nil => exact absurd rfl hne
  | cons x rest ih =>
    obtain ⟨hfirst, hrest⟩ := List.forall_mem_cons.mp h
    have hx := hfirst (.list done :: outer) awaited hawaited
    cases rest with
    | nil =>
      rw [itemTokens, itemTokens, List.intercalate_singleton, hx]
      rfl
    | cons y others =>
      have hothers := ih hrest (List.cons_ne_nil _ _) (x.tree (outer.length + 1) :: done) .value
        (.inl rfl)
      rw [itemTokens] at hothers ⊢
      rw [itemTokens, List.intercalate_cons_cons, List.append_assoc, List.foldlM_append, hx]
      rw [itemTrees, List.reverse_cons, List.append_assoc]
      exact hothers

/-- Entries are built into an open object. -/
theorem foldlM_entries {entries : List (String × Json)}
    (h : ∀ e ∈ entries, Builds e.2.tokens fun level => e.2.tree level) (hne : entries ≠ [])
    (outer : List Frame) (done : List (Option String × Source)) (name : Option String)
    (awaited : Awaited) (hawaited : awaited = .name ∨ awaited = .firstName) :
    ∃ last, ([Token.comma].intercalate (entryTokens entries)).foldlM step
        ⟨.object done name :: outer, awaited⟩ =
      some ⟨.object ((entryTrees (outer.length + 1) entries).reverse ++ done) last :: outer,
        .comma⟩ := by
  induction entries generalizing done name awaited with
  | nil => exact absurd rfl hne
  | cons e rest ih =>
    obtain ⟨key, x⟩ := e
    obtain ⟨hfirst, hrest⟩ := List.forall_mem_cons.mp h
    have hx : (Token.text (some key) :: .colon :: x.tokens).foldlM step
          ⟨.object done name :: outer, awaited⟩ =
        some ⟨.object ((some key, x.tree (outer.length + 1)) :: done) (some key) :: outer,
          .comma⟩ := by
      have hvalue := hfirst (.object done (some key) :: outer) .value (.inl rfl)
      rcases hawaited with rfl | rfl
      · exact hvalue
      · exact hvalue
    cases rest with
    | nil =>
      refine ⟨some key, ?_⟩
      rw [entryTokens, entryTokens, List.intercalate_singleton, hx]
      rfl
    | cons y others =>
      obtain ⟨last, hothers⟩ := ih hrest (List.cons_ne_nil _ _)
        ((some key, x.tree (outer.length + 1)) :: done) (some key) .name (.inl rfl)
      refine ⟨last, ?_⟩
      rw [entryTokens] at hothers ⊢
      rw [entryTokens, List.intercalate_cons_cons, List.append_assoc, List.foldlM_append, hx]
      rw [entryTrees, List.reverse_cons, List.append_assoc]
      exact hothers

end Building

/-- The tokens of a value without numbers are built into its tree. -/
theorem Worded.builds {depth : Nat} {v : Json} (h : Worded depth v) :
    Building.Builds v.tokens fun level => v.tree level := by
  induction h with
  | null => exact Building.builds_singleton Token.noConfusion fun _ => rfl
  | bool b => exact Building.builds_singleton Token.noConfusion fun _ => rfl
  | str s => exact Building.builds_singleton Token.noConfusion fun _ => rfl
  | @arr depth items parts ih =>
    intro frames awaited hawaited
    have hopen : Building.step ⟨frames, awaited⟩ .openList =
        some ⟨.list [] :: frames, .firstItem⟩ :=
      Building.step_eq_startValue? (hawaited.imp_right fun h => ⟨h, Token.noConfusion⟩)
    rw [tokens, List.cons_append, List.foldlM_cons, hopen, Option.bind_eq_bind, Option.bind_some,
      List.foldlM_append]
    cases items with
    | nil => rfl
    | cons x rest =>
      rw [Building.foldlM_items ih (List.cons_ne_nil _ _) frames [] .firstItem (.inr rfl),
        List.append_nil]
      change some (Building.closeList frames _) = _
      unfold Building.closeList
      rw [List.reverse_reverse]
      rfl
  | @obj depth entries names parts ih =>
    intro frames awaited hawaited
    have hopen : Building.step ⟨frames, awaited⟩ .openObject =
        some ⟨.object [] none :: frames, .firstName⟩ :=
      Building.step_eq_startValue? (hawaited.imp_right fun h => ⟨h, Token.noConfusion⟩)
    rw [tokens, List.cons_append, List.foldlM_cons, hopen, Option.bind_eq_bind, Option.bind_some,
      List.foldlM_append]
    cases entries with
    | nil => rfl
    | cons e rest =>
      obtain ⟨last, hentries⟩ := Building.foldlM_entries ih (List.cons_ne_nil _ _) frames [] none
        .firstName (.inr rfl)
      rw [hentries, List.append_nil]
      change some (Building.closeObject frames _) = _
      unfold Building.closeObject
      rw [List.reverse_reverse]
      rfl

/-- The tree of a value without numbers has the value, if few enough lists and objects are open. -/
theorem Worded.toJson?_tree {depth : Nat} {v : Json} (h : Worded depth v) (level : Nat)
    (hdepth : level + depth ≤ Source.maxLevel) : (v.tree level).toJson? = some v := by
  induction h generalizing level with
  | null | bool _ | str _ => rfl
  | @arr depth items parts ih =>
    have hitems : Source.toJsonItems? (itemTrees (level + 1) items) = some items := by
      clear parts
      induction items with
      | nil => rfl
      | cons x rest ihitems =>
        obtain ⟨hfirst, hrest⟩ := List.forall_mem_cons.mp ih
        rw [itemTrees, Source.toJsonItems?, hfirst (level + 1) (by omega), ihitems hrest]
        rfl
    rw [tree, Source.toJson?, if_pos (by omega), hitems]
    rfl
  | @obj depth entries names parts ih =>
    have hentries : Source.toJsonEntries? (entryTrees (level + 1) entries) = some entries := by
      clear parts names
      induction entries with
      | nil => rfl
      | cons e rest ihentries =>
        obtain ⟨hfirst, hrest⟩ := List.forall_mem_cons.mp ih
        rw [entryTrees, Source.toJsonEntries?, hfirst (level + 1) (by omega), ihentries hrest]
        rfl
    rw [tree, Source.toJson?, if_pos (by omega), hentries, Option.map_some,
      Entries.ofList_of_nodup names]

/-- Reading the text of a value without numbers is taking the value of its tree. -/
theorem Worded.read?_text_eq {depth : Nat} {v : Json} (h : Worded depth v) :
    read? v.text = (v.tree 0).toJson? := by
  have hscan : Token.ofText v.text = { tokens := v.tokens, complete := true } := by
    have hspells := h.spells [] []
    rw [List.append_nil, List.append_nil] at hspells
    unfold Token.ofText
    rw [hspells]
    change Token.Scan.mk v.tokens.reverse.reverse true = _
    rw [List.reverse_reverse]
  have hrun : Building.run v.tokens = some (v.tree 0) := by
    unfold Building.run
    rw [h.builds [] .value (.inl rfl)]
    rfl
  unfold read? Source.read?
  rw [hscan]
  dsimp only
  rw [if_pos rfl, hrun]
  rfl

/-- The text of a value without numbers reads back as the value. -/
theorem Worded.read?_text {depth : Nat} {v : Json} (h : Worded depth v)
    (hdepth : depth ≤ Source.maxLevel) : read? v.text = some v := by
  rw [h.read?_text_eq]
  exact h.toJson?_tree 0 (by omega)

end Json

end ModelGateway
