import FancyTokens.Token

/-!
# Tilings of a text by tokens

`Tiling offset text tokens` says that the tokens stand side by side and make up the text, which
begins at the offset. Unlike `tiles`, which looks each token up in a source, it is built token by
token, so tilings can be joined (`Tiling.append`). The check accepts tilings and nothing else, and
so rejects every list whose texts and offsets disagree (`tiles_eq_true_iff`).
-/

namespace FancyTokens

theorem detokenize_append (tokens more : List Token) :
    detokenize (tokens ++ more) = detokenize tokens ++ detokenize more :=
  List.flatMap_append

theorem detokenize_cons (t : Token) (tokens : List Token) :
    detokenize (t :: tokens) = t.text ++ detokenize tokens := rfl

/-- The tokens make up the text, piece by piece, from the offset on. -/
inductive Tiling : (offset : Nat) → (text : List Char) → (tokens : List Token) → Prop
  | nil {offset} : Tiling offset [] []
  | cons {category offset text rest tokens} : text ≠ [] →
      Tiling (offset + byteLength text) rest tokens →
      Tiling offset (text ++ rest) (.ofText category offset text :: tokens)

namespace Tiling

variable {offset : Nat} {text text' : List Char} {tokens tokens' : List Token}

theorem single {category : Category} (nonempty : text ≠ []) :
    Tiling offset text [.ofText category offset text] := by
  have joined : Tiling offset (text ++ []) [.ofText category offset text] := cons nonempty nil
  rwa [List.append_nil] at joined

theorem append (h : Tiling offset text tokens)
    (h' : Tiling (offset + byteLength text) text' tokens') :
    Tiling offset (text ++ text') (tokens ++ tokens') := by
  induction h with
  | nil => simpa using h'
  | cons nonempty _ ih =>
    rw [List.append_assoc, List.cons_append]
    refine cons nonempty (ih ?_)
    -- the second tiling begins behind the first token and the rest of the first text
    rwa [byteLength_append, ← Nat.add_assoc] at h'

/-- A token that ends behind its text stands before the tokens of the rest. -/
theorem cons_token {t : Token} (start : t.start = offset)
    (stop : t.stop = t.start + byteLength t.text) (nonempty : t.text ≠ [])
    (h : Tiling t.stop text tokens) : Tiling offset (t.text ++ text) (t :: tokens) := by
  obtain ⟨category, first, last, w⟩ := t
  obtain rfl : first = offset := start
  obtain rfl : last = first + byteLength w := stop
  exact cons nonempty h

/-- The tokens of a tiling give back the text. -/
theorem detokenize_eq (h : Tiling offset text tokens) : detokenize tokens = text := by
  induction h with
  | nil => rfl
  | cons _ _ ih =>
    rw [detokenize_cons, ih]
    rfl

theorem eq_nil (h : Tiling offset text []) : text = [] := by
  cases h
  rfl

theorem ne_nil (h : Tiling offset text tokens) (nonempty : text ≠ []) : tokens ≠ [] := by
  cases h with
  | nil => exact absurd rfl nonempty
  | cons => exact List.cons_ne_nil _ _

theorem tokens_eq_nil (h : Tiling offset [] tokens) : tokens = [] := by
  -- no token of a tiling is empty, so the text of one that has any is not
  generalize empty : [] = text at h
  cases h with
  | nil => rfl
  | cons nonempty _ => exact absurd (List.append_eq_nil_iff.1 empty.symm).1 nonempty

/-- Each token of a tiling holds some text, and ends that many bytes behind its start. -/
theorem stop_eq (h : Tiling offset text tokens) :
    ∀ t ∈ tokens, t.text ≠ [] ∧ t.stop = t.start + byteLength t.text := by
  induction h with
  | nil => simp
  | cons nonempty _ ih =>
    intro t mem
    rcases List.mem_cons.1 mem with rfl | mem
    · exact ⟨nonempty, rfl⟩
    · exact ih t mem

theorem le_start (h : Tiling offset text tokens) : ∀ t ∈ tokens, offset ≤ t.start := by
  induction h with
  | nil => simp
  | cons _ _ ih =>
    refine List.forall_mem_cons.2 ⟨Nat.le_refl _, fun t mem => ?_⟩
    exact Nat.le_trans (Nat.le_add_right _ _) (ih t mem)

/-- Of the tokens of a tiling one only stands over a byte. -/
theorem eq_of_overlap (h : Tiling offset text tokens) {t u : Token} {n : Nat} (mem : t ∈ tokens)
    (mem' : u ∈ tokens) (start : t.start ≤ n) (stop : n < t.stop) (start' : u.start ≤ n)
    (stop' : n < u.stop) : t = u := by
  induction h with
  | nil => cases mem
  | @cons category offset w rest tokens _ later ih =>
    -- the first token ends where the others start
    have behind : ∀ v ∈ tokens, offset + byteLength w ≤ v.start := later.le_start
    have first : (Token.ofText category offset w).stop = offset + byteLength w := rfl
    rcases List.mem_cons.1 mem with rfl | mem <;> rcases List.mem_cons.1 mem' with rfl | mem'
    · rfl
    · have := behind u mem'
      omega
    · have := behind t mem
      omega
    · exact ih mem mem'

/-- The last token of a tiling ends where the text ends. -/
theorem getLast?_stop (h : Tiling offset text tokens) :
    (tokens.getLast?.map (·.stop)).getD offset = offset + byteLength text := by
  induction h with
  | nil => simp
  | @cons category offset text rest tokens _ _ ih =>
    -- the offset of the empty rest is the end of the first token
    rw [List.getLast?_cons, byteLength_append, ← Nat.add_assoc, ← ih]
    cases tokens.getLast? <;> rfl

/-! ## Tilings by their texts and offsets -/

/-- A token of a tiling starts behind the texts of those before it. -/
theorem start_eq {before after : List Token} {t : Token}
    (h : Tiling offset text (before ++ t :: after)) :
    t.start = offset + byteLength (detokenize before) := by
  induction before generalizing offset text with
  | nil =>
    cases h
    rfl
  | cons u before ih =>
    cases h with
    | @cons category offset w rest _ _ later =>
      rw [ih later, detokenize_cons, byteLength_append, Nat.add_assoc]
      rfl

/-- Tokens make up a text just if they hold text, their texts are the text when joined, and each of
them starts behind the texts before it and ends behind its own. -/
theorem tiling_iff : Tiling offset text tokens ↔
    (∀ t ∈ tokens, t.text ≠ []) ∧ detokenize tokens = text ∧
      ∀ before t after, tokens = before ++ t :: after →
        t.start = offset + byteLength (detokenize before) ∧
          t.stop = t.start + byteLength t.text := by
  constructor
  · intro h
    refine ⟨fun t mem => (h.stop_eq t mem).1, h.detokenize_eq, ?_⟩
    rintro before t after rfl
    exact ⟨h.start_eq, (h.stop_eq t (List.mem_append_right _ List.mem_cons_self)).2⟩
  · rintro ⟨nonempty, rfl, placed⟩
    induction tokens generalizing offset with
    | nil => exact nil
    | cons t tokens ih =>
      obtain ⟨start, stop⟩ := placed [] t tokens rfl
      obtain ⟨holds, nonempty⟩ := List.forall_mem_cons.1 nonempty
      refine cons_token start stop holds (ih nonempty fun before u after parts => ?_)
      -- the first token is one more before those of the rest
      obtain ⟨start', stop'⟩ := placed (t :: before) u after (congrArg (t :: ·) parts)
      refine ⟨?_, stop'⟩
      rw [start', detokenize_cons, byteLength_append, stop, start, Nat.add_assoc]
      rfl

/-! ## The check -/

/-- The tokens of a tiling cover the source of which the text is the end. -/
theorem tilesFrom_eq_true (before : List Char) (h : Tiling (byteLength before) text tokens) :
    tilesFrom (before ++ text) (byteLength before) tokens = true := by
  -- each token moves into the text before, where the next one is looked up
  generalize start : byteLength before = offset at h
  induction h generalizing before with
  | nil => simp [tilesFrom, start]
  | @cons category offset text rest tokens nonempty _ ih =>
    subst start
    have size : byteLength text ≠ 0 := mt byteLength_eq_zero_iff.1 nonempty
    have found : slice? (before ++ (text ++ rest)) (byteLength before)
        (byteLength before + byteLength text) = some text :=
      slice?_eq_some_iff.2 ⟨before, rest, by simp, rfl, rfl⟩
    have later := ih (before ++ text) (byteLength_append before text)
    rw [List.append_assoc] at later
    simp [tilesFrom, Token.ofText, Token.isEmpty, found, later, size]

theorem tiles_eq_true (h : Tiling 0 text tokens) : tiles text tokens = true :=
  tilesFrom_eq_true [] h

/-- Tokens that the check accepts from an offset on make up the rest of the source. -/
theorem of_tilesFrom (before : List Char)
    (h : tilesFrom (before ++ text) (byteLength before) tokens = true) :
    Tiling (byteLength before) text tokens := by
  induction tokens generalizing before text with
  | nil =>
    have size : byteLength before = byteLength (before ++ text) := beq_iff_eq.1 h
    have none_left : byteLength text = 0 := by
      rw [byteLength_append] at size
      omega
    rw [byteLength_eq_zero_iff.1 none_left]
    exact nil
  | cons t tokens ih =>
    simp only [tilesFrom, Bool.and_eq_true, beq_iff_eq] at h
    obtain ⟨⟨⟨start, holds⟩, found⟩, later⟩ := h
    obtain ⟨a, rest, source, size, stop⟩ := slice?_eq_some_iff.1 found
    -- the slice begins where the text before it ends
    rw [List.append_assoc] at source
    obtain ⟨rfl, rfl⟩ := append_inj_of_byteLength source (start.symm.trans size.symm)
    have nonempty : t.text ≠ [] := by
      intro empty
      rw [empty, byteLength_nil, Nat.add_zero] at stop
      simp [Token.isEmpty, stop] at holds
    have size : byteLength (before ++ t.text) = t.stop := by
      rw [byteLength_append, ← start, stop]
    have rest_tiled : Tiling t.stop rest tokens := by
      rw [← size]
      refine ih _ ?_
      rwa [List.append_assoc, size]
    exact cons_token start stop.symm nonempty rest_tiled

theorem tiles_iff {source : List Char} : tiles source tokens = true ↔ Tiling 0 source tokens :=
  ⟨of_tilesFrom [], tiles_eq_true⟩

end Tiling

/-- The check accepts a list of tokens just if none of their texts is empty, the texts joined are
the source, and each token starts behind all texts before its own and ends behind its own. -/
theorem tiles_eq_true_iff (source : List Char) (tokens : List Token) :
    tiles source tokens = true ↔
      (∀ t ∈ tokens, t.text ≠ []) ∧ detokenize tokens = source ∧
        ∀ before t after, tokens = before ++ t :: after →
          t.start = byteLength (detokenize before) ∧ t.stop = t.start + byteLength t.text := by
  rw [Tiling.tiles_iff, Tiling.tiling_iff]
  simp only [Nat.zero_add]

end FancyTokens
