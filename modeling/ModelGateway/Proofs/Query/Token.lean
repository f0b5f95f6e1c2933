import ModelGateway.Query.Token

/-!
# How texts split into tokens

The tokens of a text, part by part. A part that `Lexes` to some tokens gives them wherever it
begins and whatever follows it, so the tokens of a text are those of its parts one after the other
(`Lexes.append`, `Lexes.flatMap`). The end of a name is only seen at the character after it:
`Lexes.name` takes a name together with the delimiter that follows it.
-/

namespace ModelGateway.Query

variable {cs more : List Char} {ts others : List Token} {c : Char} {s : String}

/-- Whether a text is a name: a letter or an underscore, then letters, digits and underscores. -/
def isName (s : String) : Bool :=
  match s.toList with
  | [] => false
  | c :: cs => isNameStart c && cs.all isNameChar

/-- Between two tokens the scanner finds certain tokens in some characters, whatever follows them,
and is between two tokens again. -/
def Lexes (cs : List Char) (ts : List Token) : Prop :=
  ∀ at_ out rest, ∃ (next : Position) (placed : List Placed), placed.map Placed.token = ts ∧
    scan .gap at_ out (cs ++ rest) = scan .gap next (placed.reverse ++ out) rest

/-! ## Delimiters -/

/-- The characters that are punctuation. -/
def punctuations : List Char :=
  "!$&():=@[]|".toList ++ ['\x7b', '\x7d']

/-- The characters that stand between names: separators and punctuation. -/
def delimiters : List Char :=
  [' ', ',', '\t', '\n', '\r', '\uFEFF'] ++ punctuations

theorem eq_of_toNat_eq {d : Char} (h : c.toNat = d.toNat) : c = d := by
  rw [← Char.ofNat_toNat c, h, Char.ofNat_toNat]

theorem mem_delimiters_of_isSeparator (h : isSeparator c = true) : c ∈ delimiters := by
  simp only [isSeparator, Bool.or_eq_true, beq_iff_eq] at h
  rcases h with ((((rfl | rfl) | rfl) | rfl) | rfl) | h
  iterate 5 decide
  rw [eq_of_toNat_eq (d := '\uFEFF') h]
  decide

theorem mem_punctuations_of_isPunctuation (h : isPunctuation c = true) : c ∈ punctuations := by
  simp only [isPunctuation, Bool.or_eq_true, beq_iff_eq, List.contains_iff_mem] at h
  rcases h with (h | h) | h
  · exact List.mem_append_left _ h
  · rw [eq_of_toNat_eq (d := '\x7b') h]
    decide
  · rw [eq_of_toNat_eq (d := '\x7d') h]
    decide

theorem mem_delimiters_of_isPunctuation (h : isPunctuation c = true) : c ∈ delimiters :=
  List.mem_append_right _ (mem_punctuations_of_isPunctuation h)

/-- A punctuation separates nothing: it is a token. -/
theorem isSeparator_of_isPunctuation (h : isPunctuation c = true) : isSeparator c = false := by
  have hall : (punctuations.all fun d => !isSeparator d) = true := by decide
  simpa using List.all_eq_true.mp hall c (mem_punctuations_of_isPunctuation h)

/-- A delimiter is no part of a name and begins neither a text nor a spread. -/
theorem of_mem_delimiters (h : c ∈ delimiters) :
    isNameChar c = false ∧ c ≠ '"' ∧ c ≠ '.' ∧ c ≠ '#' := by
  have hall : (delimiters.all fun d =>
      !isNameChar d && d != '"' && d != '.' && d != '#') = true := by
    decide
  simpa [and_assoc] using List.all_eq_true.mp hall c h

/-! ## Single characters -/

/-- What the scanner does at a character between two tokens. -/
theorem scan_gap_cons (hquote : c ≠ '"') (hdot : c ≠ '.') (at_ : Position) (out : List Placed)
    (rest : List Char) :
    scan .gap at_ out (c :: rest) =
      (start? c at_).bind fun (tokens, mode) => scan mode (at_.after c) (tokens ++ out) rest := by
  -- the general case of the scanner applies where no quotes and no three dots come first
  rw [scan]
  · rfl
  all_goals simp_all

/-- A separator is no token. -/
theorem Lexes.separator (h : isSeparator c = true) : Lexes [c] [] := by
  obtain ⟨-, hquote, hdot, -⟩ := of_mem_delimiters (mem_delimiters_of_isSeparator h)
  intro at_ out rest
  refine ⟨at_.after c, [], rfl, ?_⟩
  show scan .gap at_ out (c :: rest) = _
  rw [scan_gap_cons hquote hdot, start?, if_pos h]
  rfl

/-- A punctuation is a token of its own. -/
theorem Lexes.punctuation (h : isPunctuation c = true) : Lexes [c] [.punctuation c] := by
  obtain ⟨-, hquote, hdot, hhash⟩ := of_mem_delimiters (mem_delimiters_of_isPunctuation h)
  intro at_ out rest
  refine ⟨at_.after c, [⟨.punctuation c, at_⟩], rfl, ?_⟩
  show scan .gap at_ out (c :: rest) = _
  rw [scan_gap_cons hquote hdot, start?, isSeparator_of_isPunctuation h,
    if_neg Bool.false_ne_true, if_neg hhash, if_pos h]
  rfl

/-! ## One part after another -/

theorem Lexes.nil : Lexes [] [] :=
  fun at_ _ _ => ⟨at_, [], rfl, rfl⟩

/-- The tokens of two parts follow each other. -/
theorem Lexes.append (h : Lexes cs ts) (h' : Lexes more others) :
    Lexes (cs ++ more) (ts ++ others) := by
  intro at_ out rest
  obtain ⟨mid, placed, hplaced, hscan⟩ := h at_ out (more ++ rest)
  obtain ⟨next, placed', hplaced', hscan'⟩ := h' mid (placed.reverse ++ out) rest
  refine ⟨next, placed ++ placed', ?_, ?_⟩
  · rw [List.map_append, hplaced, hplaced']
  · rw [List.append_assoc, hscan, hscan', List.reverse_append, List.append_assoc]

/-- A separator before a part. -/
theorem Lexes.after_separator (h : Lexes cs ts) (hc : isSeparator c = true) : Lexes (c :: cs) ts :=
  (Lexes.separator hc).append h

/-- A punctuation before a part. -/
theorem Lexes.after_punctuation (h : Lexes cs ts) (hc : isPunctuation c = true) :
    Lexes (c :: cs) (.punctuation c :: ts) :=
  (Lexes.punctuation hc).append h

/-- The tokens of a list of parts. -/
theorem Lexes.flatMap {α : Type} {text : α → List Char} {tokens : α → List Token} {xs : List α}
    (h : ∀ x ∈ xs, Lexes (text x) (tokens x)) : Lexes (xs.flatMap text) (xs.flatMap tokens) := by
  induction xs with
  | nil => exact .nil
  | cons x xs ih =>
    obtain ⟨hx, hxs⟩ := List.forall_mem_cons.mp h
    rw [List.flatMap_cons, List.flatMap_cons]
    exact hx.append (ih hxs)

/-! ## Names -/

/-- A character that goes on with a name. -/
theorem scan_name_of_isNameChar (h : isNameChar c = true) (seen : List Char) (start at_ : Position)
    (out : List Placed) (rest : List Char) :
    scan (.name seen start) at_ out (c :: rest) =
      scan (.name (c :: seen) start) (at_.after c) out rest := by
  have hdot : c ≠ '.' := by
    rintro rfl
    exact absurd h (by decide)
  rw [scan, if_pos h]
  simp_all

/-- A delimiter ends a name, and the scanner goes on as between two tokens. -/
theorem scan_name_of_delimiter (h : c ∈ delimiters) (seen : List Char) (start at_ : Position)
    (out : List Placed) (rest : List Char) :
    scan (.name seen start) at_ out (c :: rest) =
      scan .gap at_ (nameToken seen start :: out) (c :: rest) := by
  obtain ⟨hname, hquote, hdot, -⟩ := of_mem_delimiters h
  rw [scan_gap_cons hquote hdot, scan, hname, if_neg Bool.false_ne_true, if_neg hquote]
  · rfl
  · simp_all

/-- The characters of a name up to a delimiter. -/
theorem scan_name (hcs : ∀ d ∈ cs, isNameChar d = true) (h : c ∈ delimiters) (start : Position)
    (out : List Placed) (rest : List Char) : ∀ (seen : List Char) (at_ : Position), ∃ next,
      scan (.name seen start) at_ out (cs ++ c :: rest) =
        scan .gap next (nameToken (cs.reverse ++ seen) start :: out) (c :: rest) := by
  induction cs with
  | nil => exact fun seen at_ => ⟨at_, scan_name_of_delimiter h seen start at_ out rest⟩
  | cons d cs ih =>
    obtain ⟨hd, hcs⟩ := List.forall_mem_cons.mp hcs
    intro seen at_
    obtain ⟨next, hnext⟩ := ih hcs (d :: seen) (at_.after d)
    refine ⟨next, ?_⟩
    rw [List.cons_append, scan_name_of_isNameChar hd, hnext, List.reverse_cons, List.append_assoc,
      List.singleton_append]

/-- The characters that may begin a name begin nothing else. -/
theorem start?_of_isNameStart (h : isNameStart c = true) (at_ : Position) :
    start? c at_ = some ([], .name [c] at_) := by
  have hchar : isNameChar c = true := by
    simp only [isNameStart, isNameChar, Char.isAlphanum, Bool.or_eq_true] at h ⊢
    exact h.imp_left .inl
  have hno {P : Prop} (hdelim : P → c ∈ delimiters) : ¬ P := fun hp => by
    rw [(of_mem_delimiters (hdelim hp)).1] at hchar
    exact Bool.false_ne_true hchar
  have hhash : c ≠ '#' := by
    rintro rfl
    exact absurd h (by decide)
  rw [start?, if_neg (hno mem_delimiters_of_isSeparator), if_neg hhash,
    if_neg (hno mem_delimiters_of_isPunctuation), if_pos h]

/-- A name and what follows it, which begins with a delimiter. -/
theorem Lexes.name (hs : isName s = true) (hc : c ∈ delimiters) (h : Lexes (c :: cs) ts) :
    Lexes (s.toList ++ c :: cs) (.name s :: ts) := by
  unfold isName at hs
  split at hs
  · exact absurd hs Bool.false_ne_true
  · rename_i first chars htext
    obtain ⟨hfirst, hchars⟩ := Bool.and_eq_true_iff.mp hs
    have hquote : first ≠ '"' := by
      rintro rfl
      exact absurd hfirst (by decide)
    have hdot : first ≠ '.' := by
      rintro rfl
      exact absurd hfirst (by decide)
    intro at_ out rest
    obtain ⟨mid, hmid⟩ := scan_name (List.all_eq_true.mp hchars) hc at_ out (cs ++ rest) [first]
      (at_.after first)
    obtain ⟨next, placed, hplaced, hscan⟩ := h mid (⟨.name s, at_⟩ :: out) rest
    refine ⟨next, ⟨.name s, at_⟩ :: placed, by rw [List.map_cons, hplaced], ?_⟩
    have htoken : nameToken (chars.reverse ++ [first]) at_ = ⟨.name s, at_⟩ := by
      rw [nameToken, List.reverse_append, List.reverse_reverse, List.reverse_singleton,
        List.singleton_append, ← htext, String.ofList_toList]
    calc scan .gap at_ out (s.toList ++ c :: cs ++ rest)
        = scan (.name [first] at_) (at_.after first) out (chars ++ c :: (cs ++ rest)) := by
          rw [htext, List.append_assoc, List.cons_append, scan_gap_cons hquote hdot,
            start?_of_isNameStart hfirst]
          rfl
      _ = scan .gap mid (⟨.name s, at_⟩ :: out) (c :: cs ++ rest) := by
          rw [hmid, htoken, List.cons_append]
      _ = scan .gap next ((⟨.name s, at_⟩ :: placed).reverse ++ out) rest := by
          rw [hscan, List.reverse_cons, List.append_assoc, List.singleton_append]

/-! ## Texts -/

/-- The tokens of a text are those of its characters. -/
theorem Lexes.tokensOf? (h : Lexes s.toList ts) :
    ∃ placed : List Placed, placed.map Placed.token = ts ∧ tokensOf? s = some placed := by
  obtain ⟨next, placed, hplaced, hscan⟩ := h .start [] []
  refine ⟨placed, hplaced, ?_⟩
  rw [List.append_nil, List.append_nil] at hscan
  rw [Query.tokensOf?, hscan, scan, List.reverse_reverse]

end ModelGateway.Query
