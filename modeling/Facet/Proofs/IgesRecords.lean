import Facet.Proofs.IgesLayout
import Facet.Proofs.TextWords

namespace Facet

/-- The lines in front of the terminator, or all lines if there is none. -/
def recordLines (texts : List (List Char)) : List (List Char) :=
  texts.takeWhile fun text => trim text ≠ igesTerminator.toList

/-- The lines of a document between its header and its terminator. -/
def igesBody (text : List Char) : List (List Char) :=
  recordLines (lines text).tail

namespace RecordKind

/-- Whether a line begins with the keyword. -/
def heads (kind : RecordKind) (text : List Char) : Bool :=
  (words text).head? == some kind.keyword.toList

/-- Whether a line begins with the keyword, a plain space, and something more. -/
def isSpacedIn (kind : RecordKind) (text : List Char) : Bool :=
  match nextWord? text with
  | none => false
  | some (word, left) =>
    word == kind.keyword.toList && left.head? == some ' ' && left.any (!isBlank ·)

/-- Whether a line begins with the keyword, and nothing or another blank follows. -/
def isLostIn (kind : RecordKind) (text : List Char) : Bool :=
  kind.heads text && !kind.isSpacedIn text

def readsWord : RecordKind → List Char → Bool
  | vertex, word => (readFloat word).isSome
  | face, word => (readIndex word).isSome

/-- Whether the three words behind the keyword read as numbers. -/
def isCompleteIn (kind : RecordKind) (text : List Char) : Bool :=
  match words text with
  | _ :: a :: b :: c :: _ => kind.readsWord a && kind.readsWord b && kind.readsWord c
  | _ => false

theorem isWord_keyword (kind : RecordKind) : IsWord kind.keyword.toList := by
  cases kind <;> decide

theorem heads_of_isSpacedIn {kind : RecordKind} {text : List Char} (h : kind.isSpacedIn text = true) :
    kind.heads text = true := by
  unfold isSpacedIn at h
  split at h
  next => cases h
  next word left hword =>
    simp only [Bool.and_eq_true, beq_iff_eq] at h
    simp [heads, words_of_word hword, h.1.1]

theorem isSpacedIn_iff (kind : RecordKind) (text : List Char) :
    kind.isSpacedIn text = true ↔ ∃ rest, trim text = kind.keyword.toList ++ ' ' :: rest := by
  unfold isSpacedIn
  split
  next hnone =>
    have hblank : IsBlanks (text.dropWhile isBlank) := fun c hc =>
      nextWord?_eq_none hnone c ((List.dropWhile_suffix _).subset hc)
    have hne : trim text = [] := trimEnd_of_isBlanks hblank
    simp [hne]
  next word left hword =>
    obtain ⟨-, -, -, hsolid, hend⟩ := nextWord?_eq_some hword
    have hendTrimmed : EndsWord (trimEnd left) := fun c hc => hend c (head?_trimEnd hc)
    rw [nextWord?_trim hword]
    simp only [Bool.and_eq_true, beq_iff_eq]
    constructor
    · rintro ⟨⟨rfl, hspace⟩, hmore⟩
      have hne : trimEnd left ≠ [] := by
        intro hnil
        obtain ⟨c, hc, hsolidChar⟩ := List.any_eq_true.mp hmore
        simp [trimEnd_eq_nil_iff.mp hnil c hc] at hsolidChar
      obtain ⟨c, rest, htrimmed⟩ := List.exists_cons_of_ne_nil hne
      have hc : c ∈ left.head? := head?_trimEnd (by rw [htrimmed]; rfl)
      cases Option.some.inj (hspace.symm.trans hc)
      exact ⟨rest, by rw [htrimmed]⟩
    · rintro ⟨rest, htext⟩
      have hsame := nextWord?_word_append hsolid hendTrimmed
      rw [htext, nextWord?_word_append kind.isWord_keyword (endsWord_cons (by decide) rest)] at hsame
      obtain ⟨rfl, htrimmed⟩ := Prod.mk.inj (Option.some.inj hsame)
      have hhead : ' ' ∈ left.head? := head?_trimEnd (by rw [← htrimmed]; rfl)
      have hmore : ¬ IsBlanks left := fun hblank => by
        rw [trimEnd_of_isBlanks hblank] at htrimmed
        cases htrimmed
      refine ⟨⟨rfl, hhead⟩, ?_⟩
      simpa [IsBlanks] using hmore

/-- Trimming keeps the words, so the words of a record follow its keyword. -/
theorem words_of_trim_eq {kind : RecordKind} {text rest : List Char}
    (h : trim text = kind.keyword.toList ++ ' ' :: rest) :
    words text = kind.keyword.toList :: words rest := by
  have hgap : IsBlanks [' '] := by decide
  have hrest : words (' ' :: rest) = words rest := words_blanks_append hgap rest
  rw [← words_trim, h, words_of_word (nextWord?_word_append kind.isWord_keyword
    (endsWord_cons (by decide) rest)), hrest]

theorem isCompleteIn_eq {kind : RecordKind} {α : Type} (read : List Char → Option α)
    (hread : ∀ word, kind.readsWord word = (read word).isSome) {text rest : List Char}
    (h : trim text = kind.keyword.toList ++ ' ' :: rest) :
    kind.isCompleteIn text = (readTriple read rest).isSome := by
  rw [Bool.eq_iff_iff, isSome_readTriple_iff, isCompleteIn, words_of_trim_eq h]
  constructor
  · intro hcomplete
    split at hcomplete
    next first a b c others hwords =>
      simp only [Bool.and_eq_true, hread] at hcomplete
      exact ⟨a, b, c, others, (List.cons.inj hwords).2, hcomplete.1.1, hcomplete.1.2, hcomplete.2⟩
    next => cases hcomplete
  · rintro ⟨a, b, c, others, hwords, ha, hb, hc⟩
    simp [hwords, hread, ha, hb, hc]

end RecordKind

namespace IgesLine

/-- What a line of a document is taken in as. -/
def ofLine (text : List Char) : IgesLine :=
  ofText (trim text)

/-- The kind of record that a line begins as. -/
def kind? : IgesLine → Option RecordKind
  | vertex _ => some .vertex
  | face _ => some .face
  | malformed kind => some kind
  | _ => none

def point? : IgesLine → Option Point
  | vertex p => some p
  | _ => none

def triangle? : IgesLine → Option Triangle
  | face t => some t
  | _ => none

/-- A keyword and a plain space make a line a record, and nothing else does. -/
theorem kind?_ofText (kind : RecordKind) (text : List Char) :
    (ofText text).kind? = some kind ↔ ∃ rest, text = kind.keyword.toList ++ ' ' :: rest := by
  constructor
  · intro h
    unfold ofText at h
    split at h
    next => cases h
    next =>
      split at h
      next rest hvertex =>
        have hkind : kind = .vertex := by
          split at h <;> exact (Option.some.inj h).symm
        exact ⟨rest, hkind ▸ (List.isPrefixOf?_eq_some_iff_append_eq.mp hvertex).symm⟩
      next =>
        split at h
        next rest hface =>
          have hkind : kind = .face := by
            split at h <;> exact (Option.some.inj h).symm
          exact ⟨rest, hkind ▸ (List.isPrefixOf?_eq_some_iff_append_eq.mp hface).symm⟩
        next => cases h
  · rintro ⟨rest, rfl⟩
    cases kind with
    | vertex =>
      change (ofText ("VERTEX ".toList ++ rest)).kind? = _
      rw [ofText_vertex]
      cases readPoint rest <;> rfl
    | face =>
      change (ofText ("FACE ".toList ++ rest)).kind? = _
      rw [ofText_face]
      cases readTriangle rest <;> rfl

theorem kind?_ofLine (kind : RecordKind) (text : List Char) :
    (ofLine text).kind? = some kind ↔ kind.isSpacedIn text = true := by
  rw [ofLine, kind?_ofText, kind.isSpacedIn_iff]

/-- A record that lacks three numbers is the only thing that is refused. -/
theorem ofLine_eq_malformed_iff (kind : RecordKind) (text : List Char) :
    ofLine text = malformed kind ↔
      kind.isSpacedIn text = true ∧ kind.isCompleteIn text = false := by
  by_cases hspaced : kind.isSpacedIn text = true
  · obtain ⟨rest, htrim⟩ := (kind.isSpacedIn_iff text).mp hspaced
    simp only [hspaced, true_and]
    cases kind with
    | vertex =>
      have hline : ofLine text = ((readPoint rest).map fun found => vertex found.1).getD
          (malformed .vertex) := by
        rw [ofLine, htrim]
        exact ofText_vertex rest
      have hcomplete := RecordKind.isCompleteIn_eq readFloat (fun _ => rfl) htrim
      rw [hline, hcomplete, readPoint]
      cases readTriple readFloat rest <;> simp
    | face =>
      have hline : ofLine text = ((readTriangle rest).map fun found => face found.1).getD
          (malformed .face) := by
        rw [ofLine, htrim]
        exact ofText_face rest
      have hcomplete := RecordKind.isCompleteIn_eq readIndex (fun _ => rfl) htrim
      rw [hline, hcomplete, readTriangle]
      cases readTriple readIndex rest <;> simp
  · refine iff_of_false (fun hmalformed => hspaced ?_) (fun hboth => hspaced hboth.1)
    rw [← kind?_ofLine, hmalformed]
    rfl

theorem isSome_point?_ofLine {text : List Char} (h : ∀ kind, ofLine text ≠ malformed kind) :
    (ofLine text).point?.isSome = RecordKind.vertex.isSpacedIn text := by
  rw [Bool.eq_iff_iff, ← kind?_ofLine]
  cases hline : ofLine text with
  | malformed kind => exact absurd hline (h kind)
  | _ => simp [point?, kind?]

theorem isSome_triangle?_ofLine {text : List Char} (h : ∀ kind, ofLine text ≠ malformed kind) :
    (ofLine text).triangle?.isSome = RecordKind.face.isSpacedIn text := by
  rw [Bool.eq_iff_iff, ← kind?_ofLine]
  cases hline : ofLine text with
  | malformed kind => exact absurd hline (h kind)
  | _ => simp [triangle?, kind?]

end IgesLine

theorem recordLines_eq_cons {texts others : List (List Char)} {text : List Char}
    (h : recordLines texts = text :: others) :
    ∃ tail, texts = text :: tail ∧ trim text ≠ igesTerminator.toList ∧
      recordLines tail = others := by
  cases texts with
  | nil => cases h
  | cons first tail =>
    by_cases hend : trim first = igesTerminator.toList
    · simp [recordLines, hend] at h
    · simp only [recordLines, List.takeWhile_cons, hend, ne_eq, not_false_eq_true, decide_true,
        if_true] at h
      obtain ⟨rfl, hothers⟩ := List.cons.inj h
      exact ⟨tail, rfl, hend, hothers⟩

/-- Where no line is refused, the lines are taken in one after the other. -/
theorem readIgesLines_of_sound {texts : List (List Char)}
    (h : ∀ text ∈ recordLines texts, ∀ kind, IgesLine.ofLine text ≠ .malformed kind)
    (draft : IgesDraft) (number : Nat) :
    readIgesLines draft number texts =
      .ok (((recordLines texts).map IgesLine.ofLine).foldl IgesDraft.put draft) := by
  induction texts generalizing draft number with
  | nil => rfl
  | cons text texts ih =>
    by_cases hend : trim text = igesTerminator.toList
    · have hnone : recordLines (text :: texts) = [] := by simp [recordLines, hend]
      rw [readIgesLines, if_pos hend, hnone]
      rfl
    · have hlines : recordLines (text :: texts) = text :: recordLines texts := by
        simp [recordLines, hend]
      rw [hlines] at h ⊢
      have hfirst : (IgesLine.ofLine text).IsReadFrom text :=
        ⟨hend, rfl, h text List.mem_cons_self⟩
      rw [readIgesLines_cons hfirst]
      exact ih (fun other hother => h other (List.mem_cons_of_mem text hother)) _ _

/-- The first line that is refused is named by its number. -/
theorem readIgesLines_of_malformed {texts front rest : List (List Char)} {text : List Char}
    {kind : RecordKind} (hlines : recordLines texts = front ++ text :: rest)
    (hfront : ∀ earlier ∈ front, ∀ kind, IgesLine.ofLine earlier ≠ .malformed kind)
    (htext : IgesLine.ofLine text = .malformed kind) (draft : IgesDraft) (number : Nat) :
    readIgesLines draft number texts = .error (.badRecord kind (number + front.length)) := by
  induction front generalizing texts draft number with
  | nil =>
    obtain ⟨tail, rfl, hgoing, -⟩ := recordLines_eq_cons hlines
    have hread : IgesLine.ofText (trim text) = .malformed kind := htext
    rw [readIgesLines, if_neg hgoing, hread]
    rfl
  | cons first front ih =>
    obtain ⟨tail, rfl, hgoing, htail⟩ := recordLines_eq_cons hlines
    have hfirst : (IgesLine.ofLine first).IsReadFrom first :=
      ⟨hgoing, rfl, hfront first List.mem_cons_self⟩
    rw [readIgesLines_cons hfirst, ih htail fun other hother =>
      hfront other (List.mem_cons_of_mem first hother), List.length_cons, Nat.add_right_comm,
      Nat.add_assoc]

/-- What a list of a draft gains from each line, it gains from all lines, the last one first. -/
theorem get_foldl_put {α : Type} (get : IgesDraft → List α) (found? : IgesLine → Option α)
    (hput : ∀ draft found, get (draft.put found) = (found? found).toList ++ get draft)
    (founds : List IgesLine) (draft : IgesDraft) :
    get (founds.foldl IgesDraft.put draft) = (founds.filterMap found?).reverse ++ get draft := by
  induction founds generalizing draft with
  | nil => rfl
  | cons found founds ih =>
    rw [List.foldl_cons, ih, hput, List.filterMap_cons]
    cases found? found <;> simp

theorem vertices_foldl_put (founds : List IgesLine) (draft : IgesDraft) :
    (founds.foldl IgesDraft.put draft).vertices =
      (founds.filterMap IgesLine.point?).reverse ++ draft.vertices :=
  get_foldl_put IgesDraft.vertices IgesLine.point? (fun _ found => by cases found <;> rfl) founds draft

theorem triangles_foldl_put (founds : List IgesLine) (draft : IgesDraft) :
    (founds.foldl IgesDraft.put draft).triangles =
      (founds.filterMap IgesLine.triangle?).reverse ++ draft.triangles :=
  get_foldl_put IgesDraft.triangles IgesLine.triangle? (fun _ found => by cases found <;> rfl)
    founds draft

theorem all_sound_or_first_malformed (texts : List (List Char)) :
    (∀ text ∈ texts, ∀ kind, IgesLine.ofLine text ≠ .malformed kind) ∨
      ∃ front text rest kind, texts = front ++ text :: rest ∧
        (∀ earlier ∈ front, ∀ kind, IgesLine.ofLine earlier ≠ .malformed kind) ∧
        IgesLine.ofLine text = .malformed kind := by
  induction texts with
  | nil => exact Or.inl fun text htext => nomatch htext
  | cons first texts ih =>
    by_cases hfirst : ∃ kind, IgesLine.ofLine first = .malformed kind
    · obtain ⟨kind, hkind⟩ := hfirst
      exact Or.inr ⟨[], first, texts, kind, rfl, fun earlier h => (nomatch h), hkind⟩
    · have hsound := not_exists.mp hfirst
      rcases ih with hall | ⟨front, text, rest, kind, rfl, hfront, htext⟩
      · exact Or.inl (List.forall_mem_cons.mpr ⟨hsound, hall⟩)
      · exact Or.inr ⟨first :: front, text, rest, kind, rfl,
          List.forall_mem_cons.mpr ⟨hsound, hfront⟩, htext⟩

theorem readIges_of_header {text : List Char}
    (h : trim ((lines text).headD []) = igesHeader.toList) :
    readIges text = (readIgesLines {} 2 (lines text).tail).bind IgesDraft.model := by
  rw [readIges]
  exact if_pos h

theorem header_of_readIges {text : List Char} {m : Model} (h : readIges text = .ok m) :
    trim ((lines text).headD []) = igesHeader.toList := by
  by_contra hheader
  rw [readIges] at h
  simp only [if_neg hheader] at h
  cases h

theorem IgesDraft.model_eq_ok {draft : IgesDraft} {m : Model} (h : draft.model = .ok m) :
    m = ⟨String.ofList draft.name,
      Mesh.ofParts draft.vertices.reverse.toArray draft.triangles.reverse.toArray⟩ := by
  unfold IgesDraft.model at h
  split at h
  next => cases h
  next => exact (Except.ok.inj h).symm

theorem exists_igesDraft {text : List Char} {m : Model} (h : readIges text = .ok m) :
    ∃ draft, readIgesLines {} 2 (lines text).tail = .ok draft ∧
      m = ⟨String.ofList draft.name,
        Mesh.ofParts draft.vertices.reverse.toArray draft.triangles.reverse.toArray⟩ := by
  rw [readIges_of_header (header_of_readIges h)] at h
  cases hlines : readIgesLines {} 2 (lines text).tail with
  | error e =>
    rw [hlines] at h
    cases h
  | ok draft =>
    rw [hlines] at h
    exact ⟨draft, rfl, IgesDraft.model_eq_ok h⟩

/-- An accepted document has no line that is refused, and its records are those of its lines. -/
theorem readIges_eq_ok {text : List Char} {m : Model} (h : readIges text = .ok m) :
    (∀ line ∈ igesBody text, ∀ kind, IgesLine.ofLine line ≠ .malformed kind) ∧
      m.mesh.vertices.toList = (igesBody text).filterMap (IgesLine.point? ∘ IgesLine.ofLine) ∧
      m.mesh.triangles.toList =
        (igesBody text).filterMap (IgesLine.triangle? ∘ IgesLine.ofLine) := by
  obtain ⟨draft, hdraft, rfl⟩ := exists_igesDraft h
  rcases all_sound_or_first_malformed (igesBody text) with
    hsound | ⟨front, line, rest, kind, hlines, hfront, hline⟩
  · rw [readIgesLines_of_sound hsound] at hdraft
    cases Except.ok.inj hdraft
    refine ⟨hsound, ?_, ?_⟩
    · simp only [Mesh.ofParts, vertices_foldl_put, List.append_nil, List.reverse_reverse,
        List.filterMap_map]
      rfl
    · simp only [Mesh.ofParts, triangles_foldl_put, List.append_nil, List.reverse_reverse,
        List.filterMap_map]
      rfl
  · rw [readIgesLines_of_malformed hlines hfront hline] at hdraft
    cases hdraft

theorem IgesLine.sound_iff (text : List Char) :
    (∀ kind, ofLine text ≠ malformed kind) ↔ ∀ kind : RecordKind, kind.heads text = true →
      kind.isLostIn text = true ∨ kind.isCompleteIn text = true := by
  constructor
  · intro h kind hheads
    by_contra hneither
    obtain ⟨hlost, hcomplete⟩ := not_or.mp hneither
    have hspaced : kind.isSpacedIn text = true := by
      simpa [RecordKind.isLostIn, hheads] using hlost
    exact h kind ((ofLine_eq_malformed_iff kind text).mpr
      ⟨hspaced, Bool.eq_false_iff.mpr hcomplete⟩)
  · intro h kind hmalformed
    obtain ⟨hspaced, hcomplete⟩ := (ofLine_eq_malformed_iff kind text).mp hmalformed
    rcases h kind (RecordKind.heads_of_isSpacedIn hspaced) with hlost | hfull
    · simp [RecordKind.isLostIn, hspaced] at hlost
    · rw [hcomplete] at hfull
      cases hfull

/-- The lines with a keyword are those with a plain space behind it and those that are lost. -/
theorem RecordKind.countP_heads (kind : RecordKind) (texts : List (List Char)) :
    texts.countP kind.isSpacedIn + texts.countP kind.isLostIn = texts.countP kind.heads := by
  induction texts with
  | nil => rfl
  | cons text texts ih =>
    rw [List.countP_cons, List.countP_cons, List.countP_cons, ← ih]
    cases hspaced : kind.isSpacedIn text with
    | true =>
      simp only [isLostIn, hspaced, heads_of_isSpacedIn hspaced, Bool.not_true, Bool.and_false,
        Bool.false_eq_true, if_true, if_false]
      omega
    | false =>
      simp only [isLostIn, hspaced, Bool.not_false, Bool.and_true, Bool.false_eq_true, if_false]
      omega

theorem countP_isSpacedIn {texts : List (List Char)}
    (hsound : ∀ text ∈ texts, ∀ kind, IgesLine.ofLine text ≠ .malformed kind) :
    (texts.filterMap (IgesLine.point? ∘ IgesLine.ofLine)).length =
        texts.countP RecordKind.vertex.isSpacedIn ∧
      (texts.filterMap (IgesLine.triangle? ∘ IgesLine.ofLine)).length =
        texts.countP RecordKind.face.isSpacedIn := by
  rw [List.length_filterMap_eq_countP, List.length_filterMap_eq_countP]
  constructor
  · exact List.countP_congr fun text htext =>
      Bool.eq_iff_iff.mp (IgesLine.isSome_point?_ofLine (hsound text htext))
  · exact List.countP_congr fun text htext =>
      Bool.eq_iff_iff.mp (IgesLine.isSome_triangle?_ofLine (hsound text htext))

/-- Every line that begins with the keyword of a record, a plain space and something more is read
as a record, or the first that cannot be is named. A line with another blank behind the keyword, or
with nothing, is lost. -/
theorem readIges_record_lines (text : List Char) :
    (∀ m, readIges text = .ok m →
      m.mesh.vertices.size + (igesBody text).countP RecordKind.vertex.isLostIn =
        (igesBody text).countP RecordKind.vertex.heads ∧
      m.mesh.triangles.size + (igesBody text).countP RecordKind.face.isLostIn =
        (igesBody text).countP RecordKind.face.heads ∧
      ∀ line ∈ igesBody text, ∀ kind : RecordKind, kind.heads line = true →
        kind.isLostIn line = true ∨ kind.isCompleteIn line = true) ∧
    (∀ (front rest : List (List Char)) (line : List Char) (kind : RecordKind),
      trim ((lines text).headD []) = igesHeader.toList → igesBody text = front ++ line :: rest →
      (∀ earlier ∈ front, ∀ other : RecordKind, other.heads earlier = true →
        other.isLostIn earlier = true ∨ other.isCompleteIn earlier = true) →
      kind.heads line = true → kind.isLostIn line = false → kind.isCompleteIn line = false →
      readIges text = .error (.badRecord kind (front.length + 2))) := by
  constructor
  · intro m h
    obtain ⟨hsound, hvertices, htriangles⟩ := readIges_eq_ok h
    obtain ⟨hpoints, hfaces⟩ := countP_isSpacedIn hsound
    refine ⟨?_, ?_, fun line hline => (IgesLine.sound_iff line).mp (hsound line hline)⟩
    · rw [← Array.length_toList, hvertices, hpoints, RecordKind.countP_heads]
    · rw [← Array.length_toList, htriangles, hfaces, RecordKind.countP_heads]
  · intro front rest line kind hheader hlines hfront hheads hlost hcomplete
    have hspaced : kind.isSpacedIn line = true := by
      simpa [RecordKind.isLostIn, hheads] using hlost
    have hmalformed := (IgesLine.ofLine_eq_malformed_iff kind line).mpr ⟨hspaced, hcomplete⟩
    have hsound : ∀ earlier ∈ front, ∀ kind, IgesLine.ofLine earlier ≠ .malformed kind :=
      fun earlier hearlier => (IgesLine.sound_iff earlier).mpr (hfront earlier hearlier)
    rw [readIges_of_header hheader, readIgesLines_of_malformed hlines hsound hmalformed,
      Nat.add_comm front.length]
    rfl

/-- A vertex behind a tab is lost, and a face with two corners is named by its line. -/
theorem readIges_record_lines_of_two :
    (∃ m, readIges ("WOODSHOP_IGES 1.0\nVERTEX 0 0 0\nVERTEX\t1 1 1\nFACE 0 0 0\nEND-IGES\n" ++
        "VERTEX 2 2 2\n").toList = .ok m ∧
      m.mesh.vertices.size + 1 = 2 ∧ m.mesh.triangles.size + 0 = 1) ∧
    readIges "WOODSHOP_IGES 1.0\n\nVERTEX 0 0 0\nFACE 0 1\n".toList =
      .error (.badRecord .face 4) := by
  let accepted := ("WOODSHOP_IGES 1.0\nVERTEX 0 0 0\nVERTEX\t1 1 1\nFACE 0 0 0\nEND-IGES\n" ++
    "VERTEX 2 2 2\n").toList
  have haccepted : (readIges accepted).toOption.isSome = true := by decide +kernel
  have hvertices : (igesBody accepted).countP RecordKind.vertex.isLostIn = 1 ∧
      (igesBody accepted).countP RecordKind.vertex.heads = 2 := by decide +kernel
  have hfaces : (igesBody accepted).countP RecordKind.face.isLostIn = 0 ∧
      (igesBody accepted).countP RecordKind.face.heads = 1 := by decide +kernel
  constructor
  · obtain ⟨m, hm⟩ := Option.isSome_iff_exists.mp haccepted
    have hread := eq_ok_of_toOption hm
    obtain ⟨hpoints, htriangles, -⟩ := (readIges_record_lines accepted).1 m hread
    rw [hvertices.1, hvertices.2] at hpoints
    rw [hfaces.1, hfaces.2] at htriangles
    exact ⟨m, hread, hpoints, htriangles⟩
  · refine (readIges_record_lines "WOODSHOP_IGES 1.0\n\nVERTEX 0 0 0\nFACE 0 1\n".toList).2
      ["".toList, "VERTEX 0 0 0".toList] ["".toList] "FACE 0 1".toList .face (by decide +kernel)
      (by decide +kernel) ?_ (by decide +kernel) (by decide +kernel) (by decide +kernel)
    have hempty : ∀ kind : RecordKind, kind.heads "".toList = false := by
      intro kind
      cases kind <;> decide +kernel
    have hvertex : ∀ kind : RecordKind, kind.heads "VERTEX 0 0 0".toList = true →
        kind.isCompleteIn "VERTEX 0 0 0".toList = true := by
      intro kind
      cases kind <;> decide +kernel
    rintro earlier (_ | ⟨_, _ | ⟨_, hnone⟩⟩) kind hheads
    · rw [hempty kind] at hheads
      cases hheads
    · exact Or.inr (hvertex kind hheads)
    · cases hnone

/-- A keyword alone on its line makes no record and no error. -/
theorem readIges_ignores_bare_keyword :
    ∃ m, readIges "WOODSHOP_IGES 1.0\nVERTEX 0 0 0\nVERTEX\nFACE 0 0 0\n".toList = .ok m ∧
      m.mesh.vertices.size ≠
        (igesBody "WOODSHOP_IGES 1.0\nVERTEX 0 0 0\nVERTEX\nFACE 0 0 0\n".toList).countP
          RecordKind.vertex.heads := by
  let text := "WOODSHOP_IGES 1.0\nVERTEX 0 0 0\nVERTEX\nFACE 0 0 0\n".toList
  have haccepted : (readIges text).toOption.map (·.mesh.vertices.size) = some 1 := by
    decide +kernel
  have hheads : (igesBody text).countP RecordKind.vertex.heads = 2 := by decide +kernel
  obtain ⟨m, hm, hsize⟩ := Option.map_eq_some_iff.mp haccepted
  refine ⟨m, eq_ok_of_toOption hm, ?_⟩
  rw [hsize, hheads]
  decide

end Facet
