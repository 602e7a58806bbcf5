import AssetAccess.Json.Writer
import AssetAccess.Proofs.Json.Reading
set_option autoImplicit false

/-!
# Writing a tree

The text that is written for a tree spells the tree (`Legible.spells_compact`).  Texts are
escaped, and every escape is undone where it is read.  For numbers that is a matter of the
number: whether its digits are read as the number again is asked of the tree (`Legible`), and
every part has to stand for a value.
-/

namespace AssetAccess.Json

/-! ## Scanning on -/

/-- The tokens of a text behind some tokens, which are kept in reverse. -/
def tokensBehind? (done : List Token) (cs : List Char) : Option (List Token) :=
  (cs.foldlM Scanner.step ⟨.between, done⟩).bind Scanner.finish?

theorem tokens?_eq_tokensBehind? (cs : List Char) : tokens? cs = tokensBehind? [] cs := rfl

/-- A word is over in front of these characters. -/
def EndsWord (cs : List Char) : Prop := ∀ c ∈ cs.head?, Scanner.endsWord c = true

/-- The characters are those of some tokens, wherever they stand in front of the end of a
word. -/
def Scans (cs : List Char) (ts : List Token) : Prop :=
  ∀ (done : List Token) (rest : List Char), EndsWord rest →
    tokensBehind? done (cs ++ rest) = tokensBehind? (ts.reverse ++ done) rest

/-! ## Words -/

/-- The characters are inside a word. -/
def insideWord (cs : List Char) : Bool := cs.all fun c => !Scanner.endsWord c

theorem insideWord_cons_iff (c : Char) (cs : List Char) :
    insideWord (c :: cs) = true ↔ Scanner.endsWord c = false ∧ insideWord cs = true := by
  rw [insideWord, List.all_cons, Bool.and_eq_true, Bool.not_eq_true', insideWord]

theorem foldlM_word {cs : List Char} (h : insideWord cs = true)
    (word : List Char) (done : List Token) (rest : List Char) :
    (cs ++ rest).foldlM Scanner.step ⟨.word word, done⟩ =
      rest.foldlM Scanner.step ⟨.word (cs.reverse ++ word), done⟩ := by
  induction cs generalizing word with
  | nil => rfl
  | cons c cs ih =>
      obtain ⟨hc, hcs⟩ := (insideWord_cons_iff c cs).mp h
      have hstep : Scanner.step ⟨.word word, done⟩ c = some ⟨.word (c :: word), done⟩ := by
        simp [Scanner.step, hc]
      rw [List.cons_append, List.foldlM_cons, hstep, List.reverse_cons, List.append_assoc]
      exact ih hcs (c :: word)

/-- A word is a token once it is over. -/
theorem finish_word {word : List Char} {v : Json} (hv : wordLeaf? word.reverse = some v)
    (done : List Token) {rest : List Char} (hrest : EndsWord rest) :
    (rest.foldlM Scanner.step ⟨.word word, done⟩).bind Scanner.finish? =
      tokensBehind? (.leaf v :: done) rest := by
  cases rest with
  | nil =>
      have hfinish : (([] : List Char).foldlM Scanner.step ⟨.word word, done⟩).bind
          Scanner.finish? = (wordLeaf? word.reverse).map fun v => (.leaf v :: done).reverse := rfl
      rw [hfinish, hv]
      rfl
  | cons c rest =>
      have hc : Scanner.endsWord c = true := hrest c rfl
      have hstep : Scanner.step ⟨.word word, done⟩ c =
          some (Scanner.start (.leaf v :: done) c) := by
        simp [Scanner.step, hc, hv]
      rw [tokensBehind?, List.foldlM_cons, List.foldlM_cons, hstep]
      rfl

theorem scans_word {c : Char} {cs : List Char} {v : Json}
    (h : insideWord (c :: cs) = true) (hv : wordLeaf? (c :: cs) = some v) :
    Scans (c :: cs) [.leaf v] := by
  intro done rest hrest
  obtain ⟨hc, hcs⟩ := (insideWord_cons_iff c cs).mp h
  have hstart : Scanner.step ⟨.between, done⟩ c = some ⟨.word [c], done⟩ := by
    rw [Scanner.endsWord, Bool.or_eq_false_iff, Bool.or_eq_false_iff] at hc
    obtain ⟨⟨hspace, hmark⟩, hquote⟩ := hc
    rw [Option.isSome_eq_false_iff, Option.isNone_iff_eq_none] at hmark
    have hquote' : ¬ c = '"' := by simpa using hquote
    simp [Scanner.step, Scanner.start, hspace, hmark, hquote']
  have hword : wordLeaf? (cs.reverse ++ [c]).reverse = some v := by
    rw [List.reverse_append, List.reverse_reverse, List.reverse_singleton, List.singleton_append]
    exact hv
  rw [List.cons_append, tokensBehind?, List.foldlM_cons, hstart]
  have hscan := foldlM_word hcs [c] done rest
  have hfinish := finish_word hword done hrest
  rw [← hscan] at hfinish
  exact hfinish

/-! ## Quoted texts -/

/-- The lower-case digits of an escape are read. -/
theorem digit?_toLower_digitChar {d : Nat} (h : d < 16) :
    Hexadecimal.digit? (Hexadecimal.digitChar d).toLower = some d := by
  have hall : ∀ d, d < 16 →
      Hexadecimal.digit? (Hexadecimal.digitChar d).toLower = some d := by decide
  exact hall d h

/-- A control character is read from the four digits of its code unit. -/
theorem foldlM_escaped_unit {c : Char} (hc : c.toNat < 32) (text : List Char) (done : List Token)
    (rest : List Char) :
    ('\\' :: 'u' :: '0' :: '0' :: (Hexadecimal.digitChar (c.toNat / 16)).toLower ::
        (Hexadecimal.digitChar (c.toNat % 16)).toLower :: rest).foldlM Scanner.step
          ⟨.quoted text true none, done⟩ =
      rest.foldlM Scanner.step ⟨.quoted (c :: text) true none, done⟩ := by
  have hhigh := digit?_toLower_digitChar (d := c.toNat / 16) (by omega)
  have hlow := digit?_toLower_digitChar (d := c.toNat % 16) (by omega)
  have hvalue : 16 * (c.toNat / 16) + c.toNat % 16 = c.toNat := by omega
  have hclose : Scanner.closeUnit text true none c.toNat = .quoted (c :: text) true none := by
    have hsurrogate : ¬ 55296 ≤ c.toNat := by omega
    have hsurrogate' : ¬ 56320 ≤ c.toNat := by omega
    simp [Scanner.closeUnit, hsurrogate, hsurrogate', Char.ofNat_toNat]
  have hlead (cs : List Char) : ('\\' :: 'u' :: '0' :: '0' :: cs).foldlM Scanner.step
        ⟨.quoted text true none, done⟩ =
      cs.foldlM Scanner.step ⟨.unit text true none 0 2, done⟩ := rfl
  have hfirst : Scanner.step ⟨.unit text true none 0 2, done⟩
        (Hexadecimal.digitChar (c.toNat / 16)).toLower =
      some ⟨.unit text true none (c.toNat / 16) 3, done⟩ := by
    simp [Scanner.step, hhigh]
  have hsecond : Scanner.step ⟨.unit text true none (c.toNat / 16) 3, done⟩
        (Hexadecimal.digitChar (c.toNat % 16)).toLower =
      some ⟨.quoted (c :: text) true none, done⟩ := by
    simp [Scanner.step, hlow, hvalue, hclose]
  rw [hlead, List.foldlM_cons, hfirst, Option.bind_eq_bind, Option.bind_some, List.foldlM_cons,
    hsecond]
  rfl

/-- Inside quotes, a character is read from its escape. -/
theorem foldlM_escaped (c : Char) (text : List Char) (done : List Token) (rest : List Char) :
    (escaped c ++ rest).foldlM Scanner.step ⟨.quoted text true none, done⟩ =
      rest.foldlM Scanner.step ⟨.quoted (c :: text) true none, done⟩ := by
  have hcode : Char.ofNat c.toNat = c := Char.ofNat_toNat c
  unfold escaped
  split
  · rename_i hquote
    rw [hquote]
    rfl
  split
  · rename_i hbackslash
    rw [hbackslash]
    rfl
  split
  · rename_i hnewline
    rw [hnewline]
    rfl
  split
  · rename_i hreturn
    rw [hreturn]
    rfl
  split
  · rename_i htab
    rw [htab]
    rfl
  split
  · rename_i hbackspace
    rw [← hcode, hbackspace]
    rfl
  split
  · rename_i hfeed
    rw [← hcode, hfeed]
    rfl
  split
  · rename_i hcontrol
    exact foldlM_escaped_unit hcontrol text done rest
  · rename_i hquote hbackslash _ _ _ _ _ hcontrol
    simp [Scanner.step, hquote, hbackslash, hcontrol]

theorem foldlM_flatMap_escaped (cs text : List Char) (done : List Token) (rest : List Char) :
    (cs.flatMap escaped ++ rest).foldlM Scanner.step ⟨.quoted text true none, done⟩ =
      rest.foldlM Scanner.step ⟨.quoted (cs.reverse ++ text) true none, done⟩ := by
  induction cs generalizing text with
  | nil => rfl
  | cons c cs ih =>
      rw [List.flatMap_cons, List.append_assoc, foldlM_escaped, ih, List.reverse_cons,
        List.append_assoc, List.singleton_append]

/-- A text in quotes is read as the text. -/
theorem tokensBehind?_quoted (done : List Token) (s : String) (rest : List Char) :
    tokensBehind? done ((quoted s).toList ++ rest) =
      tokensBehind? (.text (some s) :: done) rest := by
  have hclose : (('"' :: rest).foldlM Scanner.step
      ⟨.quoted (s.toList.reverse ++ []) true none, done⟩).bind Scanner.finish? =
        tokensBehind?
          (.text (some (String.ofList (s.toList.reverse ++ []).reverse)) :: done) rest := rfl
  rw [List.append_nil, List.reverse_reverse, String.ofList_toList] at hclose
  have hscan := foldlM_flatMap_escaped s.toList [] done ('"' :: rest)
  rw [List.append_nil] at hscan
  rw [quoted, String.toList_ofList, List.cons_append, List.cons_append, List.append_assoc,
    List.singleton_append, ← hclose, ← hscan]
  rfl

/-! ## Trees -/

/-- The digits that are written for a number are those of a word, and read as the number. -/
structure ReadsBack (n : Numeral) : Prop where
  word : insideWord (numberText n).toList = true
  leaf : wordLeaf? (numberText n).toList = some (.number n)

/-- Every part of the tree stands for a value, and every number for the one that is read from its
digits. -/
inductive Legible : Json → Prop where
  | null : Legible .null
  | bool (b : Bool) : Legible (.bool b)
  | number {n : Numeral} : ReadsBack n → Legible (.number n)
  | string (s : String) : Legible (.string s)
  | array {items : List Json} : (∀ v ∈ items, Legible v) → Legible (.array items)
  | object {members : List (String × Json)} : (∀ m ∈ members, Legible m.2) →
      Legible (.object members)

theorem scans_null : Scans ['n', 'u', 'l', 'l'] [.leaf .null] := scans_word rfl rfl

theorem scans_true : Scans ['t', 'r', 'u', 'e'] [.leaf (.bool true)] := scans_word rfl rfl

theorem scans_false : Scans ['f', 'a', 'l', 's', 'e'] [.leaf (.bool false)] := scans_word rfl rfl

theorem scans_number {n : Numeral} (h : ReadsBack n) :
    Scans (numberText n).toList [.leaf (.number n)] := by
  obtain ⟨hword, hleaf⟩ := h
  cases hdigits : (numberText n).toList with
  | nil =>
      rw [hdigits] at hleaf
      cases hleaf
  | cons c cs =>
      rw [hdigits] at hword hleaf
      exact scans_word hword hleaf

/-- A mark is a token by itself. -/
theorem tokensBehind?_comma (done : List Token) (rest : List Char) :
    tokensBehind? done (',' :: rest) = tokensBehind? (.comma :: done) rest := rfl

theorem toList_compactItems_cons (v : Json) (items : List Json) :
    (compactItems (v :: items)).toList =
      ',' :: (v.compact.toList ++ (compactItems items).toList) := by
  rw [compactItems, String.toList_append, String.toList_append]
  simp

theorem toList_compactMembers_cons (key : String) (v : Json) (members : List (String × Json)) :
    (compactMembers ((key, v) :: members)).toList =
      ',' :: ((quoted key).toList ++ ':' :: (v.compact.toList ++
        (compactMembers members).toList)) := by
  rw [compactMembers, String.toList_append, String.toList_append, String.toList_append,
    String.toList_append]
  simp

/-- A word is over in front of the items that follow it. -/
theorem endsWord_compactItems (items : List Json) (rest : List Char) :
    EndsWord ((compactItems items).toList ++ ']' :: rest) := by
  cases items with
  | nil =>
      intro c hc
      cases hc
      decide
  | cons v items =>
      rw [toList_compactItems_cons]
      intro c hc
      cases hc
      decide

theorem endsWord_compactMembers (members : List (String × Json)) (rest : List Char) :
    EndsWord ((compactMembers members).toList ++ '}' :: rest) := by
  cases members with
  | nil =>
      intro c hc
      cases hc
      decide
  | cons m members =>
      rw [toList_compactMembers_cons]
      intro c hc
      cases hc
      decide

/-- The items behind the first, and the end of the array. -/
theorem tokensBehind?_compactItems {items : List Json}
    (h : ∀ v ∈ items, Scans v.compact.toList v.tokens) (done : List Token) (rest : List Char) :
    tokensBehind? done ((compactItems items).toList ++ ']' :: rest) =
      tokensBehind? ((laterItems items).reverse ++ done) rest := by
  induction items generalizing done with
  | nil => rfl
  | cons v items ih =>
      have hv := h v List.mem_cons_self (.comma :: done)
        ((compactItems items).toList ++ ']' :: rest) (endsWord_compactItems items rest)
      have hlater := ih (fun w hw => h w (List.mem_cons_of_mem v hw))
        (v.tokens.reverse ++ .comma :: done)
      rw [toList_compactItems_cons, List.cons_append, List.append_assoc, tokensBehind?_comma, hv,
        hlater, laterItems, List.reverse_cons, List.reverse_append, List.append_assoc,
        List.append_assoc, List.singleton_append]

/-- The members behind the first, and the end of the object. -/
theorem tokensBehind?_compactMembers {members : List (String × Json)}
    (h : ∀ m ∈ members, Scans m.2.compact.toList m.2.tokens) (done : List Token)
    (rest : List Char) :
    tokensBehind? done ((compactMembers members).toList ++ '}' :: rest) =
      tokensBehind? ((laterMembers members).reverse ++ done) rest := by
  induction members generalizing done with
  | nil => rfl
  | cons m members ih =>
      obtain ⟨key, v⟩ := m
      have hv := h (key, v) List.mem_cons_self (.colon :: .text (some key) :: .comma :: done)
        ((compactMembers members).toList ++ '}' :: rest) (endsWord_compactMembers members rest)
      have hlater := ih (fun m hm => h m (List.mem_cons_of_mem _ hm))
        (v.tokens.reverse ++ .colon :: .text (some key) :: .comma :: done)
      have hcolon (cs : List Char) :
          tokensBehind? (.text (some key) :: .comma :: done) (':' :: cs) =
            tokensBehind? (.colon :: .text (some key) :: .comma :: done) cs := rfl
      rw [toList_compactMembers_cons, List.cons_append, List.append_assoc, List.cons_append,
        List.append_assoc, tokensBehind?_comma, tokensBehind?_quoted, hcolon, hv, hlater,
        laterMembers]
      simp only [List.reverse_cons, List.reverse_append, List.append_assoc, List.cons_append,
        List.nil_append]

theorem scans_array {items : List Json} (h : ∀ v ∈ items, Scans v.compact.toList v.tokens) :
    Scans (compact (.array items)).toList (tokens (.array items)) := by
  intro done rest _
  cases items with
  | nil => rfl
  | cons v items =>
      have hv := h v List.mem_cons_self (.openArray :: done)
        ((compactItems items).toList ++ ']' :: rest) (endsWord_compactItems items rest)
      have hlater := tokensBehind?_compactItems (fun w hw => h w (List.mem_cons_of_mem v hw))
        (v.tokens.reverse ++ .openArray :: done) rest
      have hopen (cs : List Char) : tokensBehind? done ('[' :: cs) =
          tokensBehind? (.openArray :: done) cs := rfl
      have hcompact : (compact (.array (v :: items))).toList ++ rest =
          '[' :: (v.compact.toList ++ ((compactItems items).toList ++ ']' :: rest)) := by
        rw [compact, String.toList_append, String.toList_append, String.toList_append]
        simp
      rw [hcompact, hopen, hv, hlater, tokens]
      simp only [List.reverse_cons, List.reverse_append, List.append_assoc, List.cons_append,
        List.nil_append]

theorem scans_object {members : List (String × Json)}
    (h : ∀ m ∈ members, Scans m.2.compact.toList m.2.tokens) :
    Scans (compact (.object members)).toList (tokens (.object members)) := by
  intro done rest _
  cases members with
  | nil => rfl
  | cons m members =>
      obtain ⟨key, v⟩ := m
      have hv := h (key, v) List.mem_cons_self (.colon :: .text (some key) :: .openObject :: done)
        ((compactMembers members).toList ++ '}' :: rest) (endsWord_compactMembers members rest)
      have hlater := tokensBehind?_compactMembers (fun m hm => h m (List.mem_cons_of_mem _ hm))
        (v.tokens.reverse ++ .colon :: .text (some key) :: .openObject :: done) rest
      have hopen (cs : List Char) : tokensBehind? done ('{' :: cs) =
          tokensBehind? (.openObject :: done) cs := rfl
      have hcolon (cs : List Char) :
          tokensBehind? (.text (some key) :: .openObject :: done) (':' :: cs) =
            tokensBehind? (.colon :: .text (some key) :: .openObject :: done) cs := rfl
      have hcompact : (compact (.object ((key, v) :: members))).toList ++ rest =
          '{' :: ((quoted key).toList ++ ':' ::
            (v.compact.toList ++ ((compactMembers members).toList ++ '}' :: rest))) := by
        rw [compact, String.toList_append, String.toList_append, String.toList_append,
          String.toList_append, String.toList_append]
        simp
      rw [hcompact, hopen, tokensBehind?_quoted, hcolon, hv, hlater, tokens]
      simp only [List.reverse_cons, List.reverse_append, List.append_assoc, List.cons_append,
        List.nil_append]

/-- What is written for a tree is scanned as its tokens. -/
theorem Legible.scans_compact {v : Json} (h : Legible v) : Scans v.compact.toList v.tokens := by
  induction h with
  | null => exact scans_null
  | bool b =>
      cases b with
      | true => exact scans_true
      | false => exact scans_false
  | number h => exact scans_number h
  | string s =>
      intro done rest _
      exact tokensBehind?_quoted done s rest
  | array _ ih => exact scans_array ih
  | object _ ih => exact scans_object ih

theorem Legible.spells_compact {v : Json} (h : Legible v) : Spells v.compact v := by
  have hscan := h.scans_compact [] [] nofun
  rw [List.append_nil, List.append_nil] at hscan
  rw [Spells, tokens?_eq_tokensBehind?, hscan]
  exact congrArg some (List.reverse_reverse v.tokens)

end AssetAccess.Json
