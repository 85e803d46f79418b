import FlowDiagram.Proofs.Markup.Written

/-!
# Written elements as tokens

Cutting what is written into tokens gives the tokens of the elements, whatever follows them (`scan_spell`), and their end tags
match their start tags, whatever is open around them (`balance_spell`). Main statement: a document that consists of one
element and blanks has the tokens of that element and no fault (`ofText_written`).
-/

namespace FlowDiagram.Markup

open FlowDiagram.Text

/-- Tokens in front of others. -/
def Tokens.after (ts : List Token) (t : Tokens) : Tokens :=
  ⟨ts ++ t.list, t.fault⟩

theorem Tokens.after_append (ts us : List Token) (t : Tokens) : t.after (ts ++ us) = (t.after us).after ts := by
  rw [after, after, after, List.append_assoc]

/-! ## One piece of markup -/

/-- A text is one token up to the next tag. -/
theorem scan_text {s r : List Char} (hs : s ≠ []) (hin : ∀ c ∈ s, c ≠ '<') (hr : ∀ c ∈ r.head?, c = '<') :
    scan (s ++ r) = (scan r).after [.text s] := by
  obtain ⟨c, t, rfl⟩ := List.exists_cons_of_ne_nil hs
  have hc : (c == '<') = false := beq_eq_false_iff_ne.2 (hin c List.mem_cons_self)
  have ht : ∀ d ∈ t, (d != '<') = true := fun d hd => bne_iff_ne.2 (hin d (List.mem_cons_of_mem c hd))
  have htake : r.takeWhile (· != '<') = [] ∧ r.dropWhile (· != '<') = r := by
    cases r with
    | nil => exact ⟨rfl, rfl⟩
    | cons d r => simp [hr d rfl]
  rw [List.cons_append, scan, hc]
  simp only [Bool.false_eq_true, if_false, List.takeWhile_append_of_pos ht, List.dropWhile_append_of_pos ht, htake,
    List.append_nil, Tokens.after, List.singleton_append]

/-- Where a piece of markup is cut off, its tokens come first and those of the rest follow. -/
theorem scan_lt {r rest : List Char} {ts : List Token} {lt : rest.length < r.length + 1}
    (h : scanMarkup r = .ok ⟨(ts, rest), lt⟩) : scan ('<' :: r) = (scan rest).after ts := by
  rw [scan, h]
  rfl

/-- A tag without quotes ends at the first closing bracket. -/
theorem cutTag_of_plain {body : List Char} (hbody : ∀ c ∈ body, c ≠ '>' ∧ c ≠ '"' ∧ c ≠ '\'') (r : List Char) :
    cutTag none (body ++ '>' :: r) = some (body, r) := by
  induction body with
  | nil => simp [cutTag]
  | cons c b ih =>
    obtain ⟨h1, h2, h3⟩ := hbody c List.mem_cons_self
    simp [cutTag, h1, h2, h3, ih fun d hd => hbody d (List.mem_cons_of_mem c hd)]

/-- Markup that is neither a declaration nor an instruction is a tag. -/
theorem scan_tag {c : Char} {b : List Char} (hc : c ≠ '!' ∧ c ≠ '?')
    (hbody : ∀ d ∈ c :: b, d ≠ '>' ∧ d ≠ '"' ∧ d ≠ '\'') (r : List Char) :
    scan ('<' :: (c :: b ++ '>' :: r)) = (scan r).after (tagTokens (c :: b)) := by
  have hcut := cutTag_of_plain hbody r
  have hmarkup : ∀ body, body = c :: b ++ '>' :: r →
      ∃ lt, scanMarkup body = .ok ⟨(tagTokens (c :: b), r), lt⟩ := by
    intro body hb
    unfold scanMarkup
    split
    · cases hb
    · exact absurd (List.cons.inj hb).1.symm hc.1
    · exact absurd (List.cons.inj hb).1.symm hc.2
    · exact absurd (List.cons.inj hb).1.symm hc.2
    · split
      · next h =>
        rw [hb, hcut] at h
        cases h
      · next h =>
        rw [hb, hcut] at h
        obtain ⟨rfl, rfl⟩ := Prod.mk.inj (Option.some.inj h)
        exact ⟨Nat.lt_succ_of_lt (length_of_cutTag (hb ▸ hcut)), rfl⟩
  obtain ⟨lt, h⟩ := hmarkup _ rfl
  exact scan_lt h

/-! ## Blanks -/

/-- A gap has blanks only. -/
theorem Gap.isSpace_of_mem {g : Gap} {c : Char} (h : c ∈ g.chars) : isSpace c = true :=
  List.all_eq_true.1 g.blank c h

/-- A character at an end that must be no blank is none. -/
theorem not_isSpace_of_mem {c? : Option Char} (h : c?.all (!isSpace ·) = true) : ∀ c ∈ c?, isSpace c = false :=
  fun c hc => by simpa using (Option.all_eq_true _ _).1 h c hc

/-! ## Names -/

namespace TagName

/-- What a character of a name is not. -/
theorem not_mem {name : TagName} {c : Char} (hc : isNameChar c = false) : c ∉ name.chars :=
  fun h => absurd (List.all_eq_true.1 name.valid c h) (by rw [hc]; exact Bool.false_ne_true)

/-- A character of a name differs from every one that no name holds. -/
theorem ne_of_mem {name : TagName} {c d : Char} (hc : isNameChar c = false) (hd : d ∈ name.chars) : d ≠ c :=
  fun h => not_mem hc (h ▸ hd)

theorem isSpace_of_mem {name : TagName} {c : Char} (hc : c ∈ name.chars) : isSpace c = false := by
  have := List.all_eq_true.1 name.valid c hc
  rw [isNameChar, Bool.not_eq_true', Bool.or_eq_false_iff] at this
  exact this.1

/-- A name has no closing bracket and no quotes. -/
theorem plain {name : TagName} {c : Char} (hc : c ∈ name.chars) : c ≠ '>' ∧ c ≠ '"' ∧ c ≠ '\'' :=
  ⟨ne_of_mem (by decide) hc, ne_of_mem (by decide) hc, ne_of_mem (by decide) hc⟩

/-- A tag that is a name and nothing else. -/
theorem ofBody_chars (name : TagName) : Tag.ofBody name.chars = name.tag := by
  have hin : ∀ c ∈ name.chars, (!isSpace c) = true := fun c hc => by rw [isSpace_of_mem hc]; rfl
  have htake : (name.chars ++ []).takeWhile (!isSpace ·) = name.chars ++ [] := List.takeWhile_append_of_pos hin
  have hdrop : (name.chars ++ []).dropWhile (!isSpace ·) = [] := List.dropWhile_append_of_pos hin
  rw [List.append_nil] at htake hdrop
  rw [Tag.ofBody, htake, hdrop, tag]

/-- A name has no blank at its end. -/
theorem dropEnd_name (name : TagName) : dropEnd isSpace name.chars = name.chars :=
  dropEnd_of_getLast? fun _ hc => isSpace_of_mem (List.mem_of_getLast? hc)

end TagName

/-- The tokens of a name between brackets are its start tag. -/
theorem tagTokens_name (name : TagName) : tagTokens name.chars = [.start name.tag] := by
  unfold tagTokens
  split
  · next h => exact absurd (h ▸ List.mem_cons_self) (TagName.not_mem (by decide))
  · have hlast : (name.chars.getLast? == some '/') = false := by
      rw [beq_eq_false_iff_ne]
      exact fun h => TagName.not_mem (by decide) (List.mem_of_getLast? h)
    rw [hlast, name.ofBody_chars]
    rfl

/-- The tokens of a name behind a slash between brackets are its end tag. -/
theorem tagTokens_slash (name : TagName) : tagTokens ('/' :: name.chars) = [.close name.chars] := by
  have hne : name.chars.isEmpty = false := by
    rw [List.isEmpty_eq_false_iff]
    exact name.ne_nil
  simp only [tagTokens, name.dropEnd_name, hne, Bool.false_eq_true, if_false]

/-- A written start tag is cut into its token, whatever follows. -/
theorem scan_opening (name : TagName) (r : List Char) :
    scan (written.opening name ++ r) = (scan r).after (tokens.opening name) := by
  obtain ⟨c, b, hcb⟩ := List.exists_cons_of_ne_nil name.ne_nil
  have hc : c ∈ name.chars := hcb ▸ List.mem_cons_self
  have hplain : ∀ d ∈ c :: b, d ≠ '>' ∧ d ≠ '"' ∧ d ≠ '\'' := fun d hd => TagName.plain (hcb ▸ hd)
  have htag := scan_tag ⟨TagName.ne_of_mem (by decide) hc, TagName.ne_of_mem (by decide) hc⟩ hplain r
  rw [← hcb, tagTokens_name] at htag
  simpa [written, tokens] using htag

/-- A written end tag is cut into its token, whatever follows. -/
theorem scan_closing (name : TagName) (r : List Char) :
    scan (written.closing name ++ r) = (scan r).after (tokens.closing name) := by
  have hplain : ∀ d ∈ '/' :: name.chars, d ≠ '>' ∧ d ≠ '"' ∧ d ≠ '\'' := by
    intro d hd
    rcases List.mem_cons.mp hd with rfl | hd
    · decide
    · exact TagName.plain hd
  have htag := scan_tag (by decide) hplain r
  rw [tagTokens_slash] at htag
  simpa [written, tokens] using htag

/-- Written blanks are one token, or none if there are no blanks, where a tag or nothing follows. -/
theorem scan_gap (g : Gap) {r : List Char} (hr : ∀ c ∈ r.head?, c = '<') :
    scan (written.gap g ++ r) = (scan r).after (tokens.gap g) := by
  by_cases hg : g.chars = []
  · simp [written, tokens, hg, Tokens.after]
  · simp only [tokens, if_neg hg]
    exact scan_text hg (fun c hc h => absurd (g.isSpace_of_mem hc) (by rw [h]; decide)) hr

/-! ## Scalars -/

/-- The characters that stand in the written form of another character. -/
def escapeChars : List Char :=
  ['&', 'a', 'm', 'p', 'l', 't', 'g', ';']

/-- A character is written as it is, unless it starts a tag. -/
theorem mem_escape {c d : Char} (h : d ∈ escape c) : (d = c ∧ c ≠ '<') ∨ d ∈ escapeChars := by
  have hname : ∀ name : List Char, name.all escapeChars.contains = true → d ∈ name → d ∈ escapeChars :=
    fun name hall hd => by simpa using List.all_eq_true.1 hall d hd
  unfold escape at h
  split at h
  · exact .inr (hname _ (by decide) h)
  · exact .inr (hname _ (by decide) h)
  · exact .inr (hname _ (by decide) h)
  · next hlt _ => exact .inl ⟨List.mem_singleton.mp h, hlt⟩

/-- Every character is written as something that does not start a tag. -/
theorem escape_spec (c : Char) : escape c ≠ [] ∧ ∀ d ∈ escape c, d ≠ '<' := by
  refine ⟨?_, fun d hd => ?_⟩
  · unfold escape
    split <;> simp
  · rcases mem_escape hd with ⟨rfl, hlt⟩ | hname
    · exact hlt
    · rintro rfl
      exact absurd hname (by decide)

/-- A number in decimal digits is not empty and has no blanks. -/
theorem decimal_spec (i : Int) : decimal i ≠ [] ∧ ∀ c ∈ decimal i, isSpace c = false := by
  have hdigit : ∀ c ∈ natDecimal i.natAbs, isSpace c = false := by
    intro c hc
    have hd : c.isDigit = true := isDigit_of_mem_natDecimal hc
    simp only [isSpace, Bool.or_eq_false_iff, beq_eq_false_iff_ne]
    refine ⟨⟨⟨?_, ?_⟩, ?_⟩, ?_⟩ <;>
      · rintro rfl
        exact absurd hd (by decide)
  unfold decimal
  split
  · refine ⟨List.cons_ne_nil _ _, fun c hc => ?_⟩
    rcases List.mem_cons.mp hc with rfl | hc
    · decide
    · exact hdigit c hc
  · exact ⟨natDecimal_ne_nil _, hdigit⟩

/-- What a scalar says is not empty and has no blank at its ends. -/
theorem Scalar.said_spec (c : Scalar) :
    c.said ≠ [] ∧ (∀ x ∈ c.said.head?, isSpace x = false) ∧ ∀ x ∈ c.said.getLast?, isSpace x = false := by
  cases c with
  | text t => exact ⟨t.ne_nil, not_isSpace_of_mem t.first, not_isSpace_of_mem t.last⟩
  | integer i held =>
    obtain ⟨hne, hin⟩ := decimal_spec i
    exact ⟨hne, fun x hx => hin x (List.mem_of_head? hx), fun x hx => hin x (List.mem_of_getLast? hx)⟩
  | flag b =>
    cases b <;> exact ⟨by decide, not_isSpace_of_mem (by decide), not_isSpace_of_mem (by decide)⟩

/-- What is written of a text is not empty unless the text is. -/
theorem flatMap_escape_ne_nil {s : List Char} (hs : s ≠ []) : s.flatMap escape ≠ [] := by
  obtain ⟨c, r, rfl⟩ := List.exists_cons_of_ne_nil hs
  rw [List.flatMap_cons]
  exact fun h => (escape_spec c).1 (List.append_eq_nil_iff.mp h).1

/-- What is written of a scalar is one text token, where a tag or nothing follows. -/
theorem scan_content (c : Scalar) {r : List Char} (hr : ∀ x ∈ r.head?, x = '<') :
    scan (written.content c ++ r) = (scan r).after (tokens.content c) := by
  refine scan_text (flatMap_escape_ne_nil c.said_spec.1) (fun x hx => ?_) hr
  obtain ⟨d, -, hd⟩ := List.mem_flatMap.mp hx
  exact (escape_spec d).2 x hd

/-! ## Whole elements -/

/-- A written start tag starts with a bracket. -/
theorem head?_opening (name : TagName) (r : List Char) : ∀ c ∈ (written.opening name ++ r).head?, c = '<' := by
  intro c hc
  exact (Option.some.inj hc).symm

theorem head?_closing (name : TagName) (r : List Char) : ∀ c ∈ (written.closing name ++ r).head?, c = '<' := by
  intro c hc
  exact (Option.some.inj hc).symm

mutual

/-- What is written of an element is cut into its tokens, whatever follows. -/
theorem scan_spell (n : Node) (r : List Char) :
    scan (n.spell written ++ r) = (scan r).after (n.spell tokens) := by
  cases n with
  | leaf gap name content =>
    simp only [Node.spell, List.append_assoc, Tokens.after_append]
    rw [scan_gap gap (head?_opening name _), scan_opening, scan_content content (head?_closing name _), scan_closing]
  | branch gap name children last =>
    simp only [Node.spell, List.append_assoc, Tokens.after_append]
    rw [scan_gap gap (head?_opening name _), scan_opening, scan_spellAll children, scan_gap last (head?_closing name _),
      scan_closing]

/-- What is written of elements is cut into their tokens, whatever follows. -/
theorem scan_spellAll (ns : List Node) (r : List Char) :
    scan (Node.spellAll written ns ++ r) = (scan r).after (Node.spellAll tokens ns) := by
  cases ns with
  | nil => rfl
  | cons n ns =>
    simp only [Node.spellAll, List.append_assoc, Tokens.after_append]
    rw [scan_spell n, scan_spellAll ns]

end

/-- Texts do not open or close anything. -/
theorem balance_texts {fault : Option Fault} {opened : List (List Char)} {ts r : List Token}
    (h : ∀ t ∈ ts, ∃ s, t = .text s) : balance fault opened (ts ++ r) = (balance fault opened r).after ts := by
  induction ts with
  | nil => rfl
  | cons t ts ih =>
    obtain ⟨s, rfl⟩ := h t List.mem_cons_self
    rw [List.cons_append, balance, ih fun t ht => h t (List.mem_cons_of_mem _ ht)]
    · rfl
    all_goals intros; contradiction

/-- The tokens of blanks are texts. -/
theorem gap_texts (g : Gap) : ∀ t ∈ tokens.gap g, ∃ s, t = .text s := by
  intro t ht
  simp only [tokens] at ht
  split at ht
  · cases ht
  · exact ⟨_, List.mem_singleton.mp ht⟩

theorem content_texts (c : Scalar) : ∀ t ∈ tokens.content c, ∃ s, t = .text s :=
  fun _ ht => ⟨_, List.mem_singleton.mp ht⟩

/-- A start tag opens its element in front of all that is open. -/
theorem balance_opening (fault : Option Fault) (opened : List (List Char)) (name : TagName) (r : List Token) :
    balance fault opened (tokens.opening name ++ r) =
      (balance fault (name.chars :: opened) r).after (tokens.opening name) := by
  cases opened <;> rfl

/-- An end tag closes the element of its name that was opened last. -/
theorem balance_closing (fault : Option Fault) (opened : List (List Char)) (name : TagName) (r : List Token) :
    balance fault (name.chars :: opened) (tokens.closing name ++ r) =
      (balance fault opened r).after (tokens.closing name) := by
  simp [tokens, balance, Tokens.after]

mutual

/-- The tags of an element match, whatever is open around it. -/
theorem balance_spell (fault : Option Fault) (opened : List (List Char)) (n : Node) (r : List Token) :
    balance fault opened (n.spell tokens ++ r) = (balance fault opened r).after (n.spell tokens) := by
  cases n with
  | leaf gap name content =>
    simp only [Node.spell, List.append_assoc, Tokens.after_append]
    rw [balance_texts (gap_texts gap), balance_opening, balance_texts (content_texts content), balance_closing]
  | branch gap name children last =>
    simp only [Node.spell, List.append_assoc, Tokens.after_append]
    rw [balance_texts (gap_texts gap), balance_opening, balance_spellAll fault _ children,
      balance_texts (gap_texts last), balance_closing]

/-- The tags of elements match, whatever is open around them. -/
theorem balance_spellAll (fault : Option Fault) (opened : List (List Char)) (ns : List Node) (r : List Token) :
    balance fault opened (Node.spellAll tokens ns ++ r) =
      (balance fault opened r).after (Node.spellAll tokens ns) := by
  cases ns with
  | nil => rfl
  | cons n ns =>
    simp only [Node.spellAll, List.append_assoc, Tokens.after_append]
    rw [balance_spell fault opened n, balance_spellAll fault opened ns]

end

/-- What is written of an element does not start with a byte order mark. -/
theorem head?_written (n : Node) (r : List Char) : ∀ s, n.spell written ++ r ≠ '\uFEFF' :: s := by
  have hfirst : ∀ (g : Gap) (name : TagName) (t s : List Char),
      written.gap g ++ (written.opening name ++ t) ≠ '\uFEFF' :: s := by
    intro g name t s h
    cases hg : written.gap g with
    | nil =>
      rw [hg] at h
      exact absurd (List.cons.inj h).1 (by decide)
    | cons c b =>
      rw [hg] at h
      have hc : isSpace c = true := g.isSpace_of_mem (by rw [show g.chars = c :: b from hg]; exact List.mem_cons_self)
      rw [(List.cons.inj h).1] at hc
      exact absurd hc (by decide)
  intro s
  cases n with
  | leaf gap name content => simpa only [Node.spell, List.append_assoc] using hfirst gap name _ s
  | branch gap name children last => simpa only [Node.spell, List.append_assoc] using hfirst gap name _ s

/-- The tokens of a document that consists of one element, with blanks around it. -/
theorem ofText_written (n : Node) (g : Gap) :
    Tokens.ofText (n.spell written ++ written.gap g) = ⟨n.spell tokens ++ tokens.gap g, none⟩ := by
  have hscan : scan (n.spell written ++ written.gap g) = ⟨n.spell tokens ++ tokens.gap g, none⟩ := by
    rw [scan_spell]
    have hgap := scan_gap g (r := []) (fun c hc => by cases hc)
    rw [List.append_nil] at hgap
    rw [hgap]
    simp [scan, Tokens.after]
  have hbalance : balance none [] (n.spell tokens ++ tokens.gap g) = ⟨n.spell tokens ++ tokens.gap g, none⟩ := by
    rw [balance_spell]
    have hgap : balance none [] (tokens.gap g ++ []) = _ := balance_texts (gap_texts g)
    rw [List.append_nil] at hgap
    rw [hgap]
    simp [balance, Tokens.after]
  unfold Tokens.ofText
  split
  · next h => exact absurd h (head?_written n _ _)
  · simp only [hscan]
    exact hbalance

end FlowDiagram.Markup
