import Facet.Proofs.IgesRecords
import Facet.Proofs.IgesRoundTrip

namespace Facet

/-- The lines of a document between its header and its terminator, as they are dispatched on. -/
def igesTexts (text : List Char) : List (List Char) :=
  (igesBody text).map trim

/-- The first three words as values, if there are three and all of them read. -/
def tripleOfWords {α : Type} (read : List Char → Option α) :
    List (List Char) → Option (α × α × α)
  | a :: b :: c :: _ => do return (← read a, ← read b, ← read c)
  | _ => none

def pointOfWords (fields : List (List Char)) : Option Point :=
  (tripleOfWords readFloat fields).map fun (x, y, z) => ⟨x, y, z⟩

def triangleOfWords (fields : List (List Char)) : Option Triangle :=
  (tripleOfWords readIndex fields).map fun (a, b, c) => ⟨a, b, c⟩

/-- The name behind the keyword of a line that sets it. -/
def nameOfText? (text : List Char) : Option (List Char) :=
  "MODEL ".toList.isPrefixOf? text

/-- The name that is set last, and an empty one if none is. -/
def lastName (texts : List (List Char)) : List Char :=
  (texts.filterMap nameOfText?).getLast?.getD []

namespace RecordKind

/-- The words behind the keyword of a record and its plain space. -/
def fields? (kind : RecordKind) (text : List Char) : Option (List (List Char)) :=
  ((kind.keyword.toList ++ [' ']).isPrefixOf? text).map words

/-- The fields of the records of one kind, in the order of their lines. -/
def records (kind : RecordKind) (texts : List (List Char)) : List (List (List Char)) :=
  texts.filterMap kind.fields?

def areComplete : RecordKind → List (List Char) → Bool
  | vertex, fields => (pointOfWords fields).isSome
  | face, fields => (triangleOfWords fields).isSome

/-- A line that begins as a record but lacks three values. -/
def IsBroken (kind : RecordKind) (text : List Char) : Prop :=
  ∃ fields, kind.fields? text = some fields ∧ kind.areComplete fields = false

instance (kind : RecordKind) (text : List Char) : Decidable (kind.IsBroken text) :=
  decidable_of_iff ((kind.fields? text).any (!kind.areComplete ·) = true) (by
    simp [IsBroken, Option.any_eq_true])

end RecordKind

theorem tripleOfWords_eq_some {α : Type} {read : List Char → Option α} {fields : List (List Char)}
    {x y z : α} : tripleOfWords read fields = some (x, y, z) ↔
      ∃ a b c others, fields = a :: b :: c :: others ∧
        read a = some x ∧ read b = some y ∧ read c = some z := by
  constructor
  · intro h
    unfold tripleOfWords at h
    split at h
    next a b c others =>
      obtain ⟨x', hx, h⟩ := Option.bind_eq_some_iff.mp h
      obtain ⟨y', hy, h⟩ := Option.bind_eq_some_iff.mp h
      obtain ⟨z', hz, h⟩ := Option.bind_eq_some_iff.mp h
      cases Option.some.inj h
      exact ⟨a, b, c, others, rfl, hx, hy, hz⟩
    next => cases h
  · rintro ⟨a, b, c, others, rfl, hx, hy, hz⟩
    simp [tripleOfWords, hx, hy, hz]

/-- What is read of a record is a matter of its words, not of the blanks between them. -/
theorem map_fst_readTriple {α : Type} (read : List Char → Option α) (text : List Char) :
    (readTriple read text).map Prod.fst = tripleOfWords read (words text) := by
  apply Option.ext
  rintro ⟨x, y, z⟩
  rw [tripleOfWords_eq_some, Option.map_eq_some_iff]
  constructor
  · rintro ⟨⟨_, left⟩, hread, rfl⟩
    obtain ⟨a, b, c, hwords, ha, hb, hc⟩ := words_of_readTriple hread
    exact ⟨a, b, c, words left, hwords, ha, hb, hc⟩
  · rintro ⟨a, b, c, others, hwords, ha, hb, hc⟩
    obtain ⟨left, hread, -⟩ := readTriple_of_words hwords ha hb hc
    exact ⟨_, hread, rfl⟩

theorem map_fst_readPoint (text : List Char) :
    (readPoint text).map Prod.fst = pointOfWords (words text) := by
  rw [pointOfWords, ← map_fst_readTriple, readPoint]
  cases readTriple readFloat text <;> rfl

theorem map_fst_readTriangle (text : List Char) :
    (readTriangle text).map Prod.fst = triangleOfWords (words text) := by
  rw [triangleOfWords, ← map_fst_readTriple, readTriangle]
  cases readTriple readIndex text <;> rfl

namespace IgesLine

def name? : IgesLine → Option (List Char)
  | name text => some text
  | _ => none

/-- The keyword decides what a line is taken in as, and no line has two of them. -/
theorem ofText_cases (text : List Char) :
    (∃ rest, nameOfText? text = some rest ∧ RecordKind.vertex.fields? text = none ∧
      RecordKind.face.fields? text = none ∧ ofText text = name rest) ∨
    (∃ fields, nameOfText? text = none ∧ RecordKind.vertex.fields? text = some fields ∧
      RecordKind.face.fields? text = none ∧
      ofText text = ((pointOfWords fields).map vertex).getD (malformed .vertex)) ∨
    (∃ fields, nameOfText? text = none ∧ RecordKind.vertex.fields? text = none ∧
      RecordKind.face.fields? text = some fields ∧
      ofText text = ((triangleOfWords fields).map face).getD (malformed .face)) ∨
    (nameOfText? text = none ∧ RecordKind.vertex.fields? text = none ∧
      RecordKind.face.fields? text = none ∧ ofText text = other) := by
  cases hname : "MODEL ".toList.isPrefixOf? text with
  | some rest =>
    obtain rfl := List.isPrefixOf?_eq_some_iff_append_eq.mp hname
    exact Or.inl ⟨rest, hname, rfl, rfl, ofText_name rest⟩
  | none =>
    cases hvertex : "VERTEX ".toList.isPrefixOf? text with
    | some rest =>
      have hfields : RecordKind.vertex.fields? text = some (words rest) :=
        congrArg (Option.map words) hvertex
      obtain rfl := List.isPrefixOf?_eq_some_iff_append_eq.mp hvertex
      refine Or.inr (Or.inl ⟨words rest, rfl, hfields, rfl, ?_⟩)
      rw [ofText_vertex, ← map_fst_readPoint, Option.map_map]
      rfl
    | none =>
      cases hface : "FACE ".toList.isPrefixOf? text with
      | some rest =>
        have hfields : RecordKind.face.fields? text = some (words rest) :=
          congrArg (Option.map words) hface
        obtain rfl := List.isPrefixOf?_eq_some_iff_append_eq.mp hface
        refine Or.inr (Or.inr (Or.inl ⟨words rest, rfl, rfl, hfields, ?_⟩))
        rw [ofText_face, ← map_fst_readTriangle, Option.map_map]
        rfl
      | none =>
        refine Or.inr (Or.inr (Or.inr ⟨hname, Option.map_eq_none_iff.mpr hvertex,
          Option.map_eq_none_iff.mpr hface, ?_⟩))
        simp only [ofText, hname, hvertex, hface]

/-- Each part of a line comes from the fields behind its own keyword. -/
theorem parts_ofText (text : List Char) :
    (ofText text).name? = nameOfText? text ∧
      (ofText text).point? = (RecordKind.vertex.fields? text).bind pointOfWords ∧
      (ofText text).triangle? = (RecordKind.face.fields? text).bind triangleOfWords := by
  rcases ofText_cases text with ⟨rest, hname, hvertex, hface, htext⟩ |
    ⟨fields, hname, hvertex, hface, htext⟩ | ⟨fields, hname, hvertex, hface, htext⟩ |
    ⟨hname, hvertex, hface, htext⟩
  all_goals rw [htext, hname, hvertex, hface]
  · exact ⟨rfl, rfl, rfl⟩
  · rw [Option.bind_some]
    cases pointOfWords fields <;> exact ⟨rfl, rfl, rfl⟩
  · rw [Option.bind_some]
    cases triangleOfWords fields <;> exact ⟨rfl, rfl, rfl⟩
  · exact ⟨rfl, rfl, rfl⟩

theorem ofText_eq_malformed_iff (kind : RecordKind) (text : List Char) :
    ofText text = malformed kind ↔ kind.IsBroken text := by
  rcases ofText_cases text with ⟨rest, -, hvertex, hface, htext⟩ |
    ⟨fields, -, hvertex, hface, htext⟩ | ⟨fields, -, hvertex, hface, htext⟩ |
    ⟨-, hvertex, hface, htext⟩
  · rw [htext]
    cases kind <;> simp [RecordKind.IsBroken, hvertex, hface]
  · rw [htext]
    cases kind <;> cases hread : pointOfWords fields <;>
      simp [RecordKind.IsBroken, RecordKind.areComplete, hvertex, hface, hread]
  · rw [htext]
    cases kind <;> cases hread : triangleOfWords fields <;>
      simp [RecordKind.IsBroken, RecordKind.areComplete, hvertex, hface, hread]
  · rw [htext]
    cases kind <;> simp [RecordKind.IsBroken, hvertex, hface]

end IgesLine

theorem RecordKind.exists_isBroken_iff (kind : RecordKind) (texts : List (List Char)) :
    (∃ text ∈ texts, kind.IsBroken text) ↔
      ∃ fields ∈ kind.records texts, kind.areComplete fields = false := by
  constructor
  · rintro ⟨text, htext, fields, hfields, hbroken⟩
    exact ⟨fields, List.mem_filterMap.mpr ⟨text, htext, hfields⟩, hbroken⟩
  · rintro ⟨fields, hmem, hbroken⟩
    obtain ⟨text, htext, hfields⟩ := List.mem_filterMap.mp hmem
    exact ⟨text, htext, fields, hfields, hbroken⟩

theorem name_foldl_put (founds : List IgesLine) (draft : IgesDraft) :
    (founds.foldl IgesDraft.put draft).name =
      (founds.filterMap IgesLine.name?).getLast?.getD draft.name := by
  induction founds generalizing draft with
  | nil => rfl
  | cons found founds ih =>
    rw [List.foldl_cons, ih]
    cases found with
    | name text =>
      rw [List.filterMap_cons_some (show IgesLine.name? (.name text) = some text from rfl),
        List.getLast?_cons]
      rfl
    | vertex p => rfl
    | face t => rfl
    | malformed kind => rfl
    | other => rfl

theorem filterMap_name?_ofText (texts : List (List Char)) :
    (texts.map IgesLine.ofText).filterMap IgesLine.name? = texts.filterMap nameOfText? := by
  rw [List.filterMap_map]
  exact List.filterMap_congr fun text _ => (IgesLine.parts_ofText text).1

theorem filterMap_point?_ofText (texts : List (List Char)) :
    (texts.map IgesLine.ofText).filterMap IgesLine.point? =
      (RecordKind.vertex.records texts).filterMap pointOfWords := by
  rw [List.filterMap_map, RecordKind.records, List.filterMap_filterMap]
  exact List.filterMap_congr fun text _ => (IgesLine.parts_ofText text).2.1

theorem filterMap_triangle?_ofText (texts : List (List Char)) :
    (texts.map IgesLine.ofText).filterMap IgesLine.triangle? =
      (RecordKind.face.records texts).filterMap triangleOfWords := by
  rw [List.filterMap_map, RecordKind.records, List.filterMap_filterMap]
  exact List.filterMap_congr fun text _ => (IgesLine.parts_ofText text).2.2

/-- All that the lines of a document leave behind, told apart by what they are. -/
theorem foldl_put_ofText (texts : List (List Char)) :
    (texts.map IgesLine.ofText).foldl IgesDraft.put {} =
      ⟨lastName texts, ((RecordKind.vertex.records texts).filterMap pointOfWords).reverse,
        ((RecordKind.face.records texts).filterMap triangleOfWords).reverse⟩ := by
  let founds := texts.map IgesLine.ofText
  have hname : (founds.foldl IgesDraft.put {}).name = lastName texts := by
    rw [name_foldl_put, filterMap_name?_ofText, lastName]
  have hvertices : (founds.foldl IgesDraft.put {}).vertices =
      ((RecordKind.vertex.records texts).filterMap pointOfWords).reverse := by
    rw [vertices_foldl_put, List.append_nil, filterMap_point?_ofText]
  have htriangles : (founds.foldl IgesDraft.put {}).triangles =
      ((RecordKind.face.records texts).filterMap triangleOfWords).reverse := by
    rw [triangles_foldl_put, List.append_nil, filterMap_triangle?_ofText]
  rw [← hname, ← hvertices, ← htriangles]

theorem igesBody_map_ofLine (text : List Char) :
    (igesBody text).map IgesLine.ofLine = (igesTexts text).map IgesLine.ofText := by
  rw [igesTexts, List.map_map]
  rfl

theorem map_some_filterMap {α β : Type} {f : α → Option β} {xs : List α}
    (h : ∀ x ∈ xs, (f x).isSome = true) : (xs.filterMap f).map some = xs.map f := by
  induction xs with
  | nil => rfl
  | cons x xs ih =>
    obtain ⟨y, hy⟩ := Option.isSome_iff_exists.mp (h x List.mem_cons_self)
    rw [List.filterMap_cons_some hy, List.map_cons, List.map_cons, hy,
      ih fun z hz => h z (List.mem_cons_of_mem x hz)]

theorem RecordKind.areComplete_of_sound {texts : List (List Char)} {kind : RecordKind}
    (hsound : ∀ text ∈ texts, ¬ kind.IsBroken text) :
    ∀ fields ∈ kind.records texts, kind.areComplete fields = true := by
  intro fields hfields
  by_contra hbroken
  obtain ⟨text, htext, hkind⟩ := (kind.exists_isBroken_iff texts).mpr
    ⟨fields, hfields, Bool.eq_false_iff.mpr hbroken⟩
  exact hsound text htext hkind

section Unbroken

variable {texts : List (List Char)}

theorem map_pointOfWords_records
    (hsound : ∀ text ∈ texts, ∀ kind : RecordKind, ¬ kind.IsBroken text) :
    ((RecordKind.vertex.records texts).filterMap pointOfWords).map some =
      (RecordKind.vertex.records texts).map pointOfWords :=
  map_some_filterMap (RecordKind.areComplete_of_sound fun text htext => hsound text htext .vertex)

theorem map_triangleOfWords_records
    (hsound : ∀ text ∈ texts, ∀ kind : RecordKind, ¬ kind.IsBroken text) :
    ((RecordKind.face.records texts).filterMap triangleOfWords).map some =
      (RecordKind.face.records texts).map triangleOfWords :=
  map_some_filterMap (RecordKind.areComplete_of_sound fun text htext => hsound text htext .face)

end Unbroken

/-- Where no line is broken, what is read is a matter of the vertices, of the faces and of the last
name. -/
theorem readIges_of_unbroken {text : List Char}
    (hheader : trim ((lines text).headD []) = igesHeader.toList)
    (hsound : ∀ line ∈ igesTexts text, ∀ kind : RecordKind, ¬ kind.IsBroken line) :
    readIges text =
      if (RecordKind.vertex.records (igesTexts text)).length = 0 ∨
          (RecordKind.face.records (igesTexts text)).length = 0 then
        .error (.missingGeometry (RecordKind.vertex.records (igesTexts text)).length
          (RecordKind.face.records (igesTexts text)).length)
      else .ok ⟨String.ofList (lastName (igesTexts text)), Mesh.ofParts
        ((RecordKind.vertex.records (igesTexts text)).filterMap pointOfWords).toArray
        ((RecordKind.face.records (igesTexts text)).filterMap triangleOfWords).toArray⟩ := by
  have hlines : ∀ line ∈ igesBody text, ∀ kind, IgesLine.ofLine line ≠ .malformed kind := by
    intro line hline kind hmalformed
    exact hsound (trim line) (List.mem_map_of_mem hline) kind
      ((IgesLine.ofText_eq_malformed_iff kind _).mp hmalformed)
  have hpoints := congrArg List.length (map_pointOfWords_records hsound)
  have htriangles := congrArg List.length (map_triangleOfWords_records hsound)
  rw [List.length_map, List.length_map] at hpoints htriangles
  rw [readIges_of_header hheader, readIgesLines_of_sound hlines]
  change (((igesBody text).map IgesLine.ofLine).foldl IgesDraft.put {}).model = _
  rw [igesBody_map_ofLine, foldl_put_ofText, ← hpoints, ← htriangles]
  exact IgesDraft.model_of_reversed _ (List.toArray _) (List.toArray _)

/-- Lines behind the terminator are not looked at. -/
theorem readIgesLines_recordLines (draft : IgesDraft) (number : Nat) (texts : List (List Char)) :
    readIgesLines draft number texts = readIgesLines draft number (recordLines texts) := by
  induction texts generalizing draft number with
  | nil => rfl
  | cons text texts ih =>
    by_cases hend : trim text = igesTerminator.toList
    · have hnone : recordLines (text :: texts) = [] := by simp [recordLines, hend]
      simp only [hnone, readIgesLines, hend, if_true]
    · have hlines : recordLines (text :: texts) = text :: recordLines texts := by
        simp [recordLines, hend]
      rw [hlines, readIgesLines, readIgesLines, if_neg hend, if_neg hend]
      cases IgesLine.ofText (trim text) with
      | malformed kind => rfl
      | _ => exact ih _ _

theorem readIges_congr {text other : List Char}
    (hfirst : (lines other).headD [] = (lines text).headD [])
    (hbody : igesBody other = igesBody text) : readIges other = readIges text := by
  unfold igesBody at hbody
  by_cases hheader : trim ((lines text).headD []) = igesHeader.toList
  · rw [readIges_of_header hheader, readIges_of_header (hfirst.symm ▸ hheader),
      readIgesLines_recordLines, hbody, ← readIgesLines_recordLines]
  · simp only [readIges, hfirst, if_neg hheader]

theorem recordLines_append_terminator (front rest : List (List Char)) {last : List Char}
    (hlast : trim last = igesTerminator.toList) :
    recordLines (front ++ last :: rest) = recordLines front := by
  induction front with
  | nil => simp [recordLines, hlast]
  | cons first front ih =>
    simp only [recordLines, List.cons_append, List.takeWhile_cons] at ih ⊢
    rw [ih]

/-- The records of a document decide what is read of it, wherever its lines stand. -/
theorem readIges_of_same_records {text other : List Char} {m : Model}
    (hheader : trim ((lines other).headD []) = igesHeader.toList)
    (hrecords : ∀ kind : RecordKind, kind.records (igesTexts other) = kind.records (igesTexts text))
    (hname : lastName (igesTexts other) = lastName (igesTexts text))
    (h : readIges text = .ok m) : readIges other = .ok m := by
  have hsound : ∀ line ∈ igesTexts text, ∀ kind : RecordKind, ¬ kind.IsBroken line := by
    intro line hline kind hbroken
    obtain ⟨raw, hraw, rfl⟩ := List.mem_map.mp hline
    exact (readIges_eq_ok h).1 raw hraw kind ((IgesLine.ofText_eq_malformed_iff kind _).mpr hbroken)
  have hother : ∀ line ∈ igesTexts other, ∀ kind : RecordKind, ¬ kind.IsBroken line := by
    intro line hline kind hbroken
    obtain ⟨fields, hfields, hincomplete⟩ := (kind.exists_isBroken_iff _).mp ⟨line, hline, hbroken⟩
    rw [hrecords kind] at hfields
    obtain ⟨first, hfirst, hkind⟩ := (kind.exists_isBroken_iff _).mpr ⟨fields, hfields, hincomplete⟩
    exact hsound first hfirst kind hkind
  rw [readIges_of_unbroken hheader hother, hrecords, hrecords, hname,
    ← readIges_of_unbroken (header_of_readIges h) hsound, h]

/-- A document is read by its record lines alone: the first broken one is named by its number, and
otherwise the vertices, the faces and the last name make up the model. Lines may change places as
long as each kind keeps its order, and what follows the terminator does not matter. -/
theorem readIges_record_order {text : List Char}
    (hheader : trim ((lines text).headD []) = igesHeader.toList) :
    (∀ (front rest : List (List Char)) (line : List Char) (kind : RecordKind),
      igesTexts text = front ++ line :: rest →
      (∀ earlier ∈ front, ∀ other : RecordKind, ¬ other.IsBroken earlier) → kind.IsBroken line →
      readIges text = .error (.badRecord kind (front.length + 2))) ∧
    ((∀ line ∈ igesTexts text, ∀ kind : RecordKind, ¬ kind.IsBroken line) →
      (RecordKind.vertex.records (igesTexts text) = [] ∨
        RecordKind.face.records (igesTexts text) = [] →
        readIges text = .error (.missingGeometry (RecordKind.vertex.records (igesTexts text)).length
          (RecordKind.face.records (igesTexts text)).length)) ∧
      (RecordKind.vertex.records (igesTexts text) ≠ [] →
        RecordKind.face.records (igesTexts text) ≠ [] →
        ∃ m, readIges text = .ok m ∧ m.name.toList = lastName (igesTexts text) ∧
          m.mesh.vertices.toList.map some =
            (RecordKind.vertex.records (igesTexts text)).map pointOfWords ∧
          m.mesh.triangles.toList.map some =
            (RecordKind.face.records (igesTexts text)).map triangleOfWords ∧
          m.mesh.normals = none)) ∧
    (∀ (other : List Char) (m : Model), trim ((lines other).headD []) = igesHeader.toList →
      (∀ kind : RecordKind, kind.records (igesTexts other) = kind.records (igesTexts text)) →
      lastName (igesTexts other) = lastName (igesTexts text) →
      readIges text = .ok m → readIges other = .ok m) ∧
    (∀ (front after changed : List (List Char)) (last other : List Char),
      (lines text).tail = front ++ last :: after → trim last = igesTerminator.toList →
      lines other = (lines text).headD [] :: (front ++ last :: changed) →
      readIges other = readIges text) := by
  refine ⟨?_, ?_, fun other m hother hrecords hname h =>
    readIges_of_same_records hother hrecords hname h, ?_⟩
  · intro front rest line kind hlines hfront hbroken
    obtain ⟨rawFront, rawRest, hraw, rfl, hrawRest⟩ := List.map_eq_append_iff.mp hlines
    obtain ⟨raw, others, rfl, rfl, -⟩ := List.map_eq_cons_iff.mp hrawRest
    have hsound : ∀ earlier ∈ rawFront, ∀ kind, IgesLine.ofLine earlier ≠ .malformed kind :=
      fun earlier hearlier other hmalformed => hfront (trim earlier) (List.mem_map_of_mem hearlier)
        other ((IgesLine.ofText_eq_malformed_iff other _).mp hmalformed)
    have hmalformed : IgesLine.ofLine raw = .malformed kind :=
      (IgesLine.ofText_eq_malformed_iff kind _).mpr hbroken
    rw [readIges_of_header hheader, readIgesLines_of_malformed hraw hsound hmalformed,
      List.length_map, Nat.add_comm rawFront.length]
    rfl
  · intro hsound
    simp only [readIges_of_unbroken hheader hsound, List.length_eq_zero_iff]
    constructor
    · intro hmissing
      rw [if_pos hmissing]
    · intro hvertices hfaces
      rw [if_neg (not_or.mpr ⟨hvertices, hfaces⟩)]
      exact ⟨_, rfl, String.toList_ofList, map_pointOfWords_records hsound,
        map_triangleOfWords_records hsound, rfl⟩
  · intro front after changed last other htail hlast hother
    refine readIges_congr (by rw [hother]; rfl) ?_
    rw [igesBody, igesBody, hother, htail, List.tail_cons,
      recordLines_append_terminator front changed hlast,
      recordLines_append_terminator front after hlast]

/-- Faces may stand in front of vertices, and the line behind a blank second line is the third. -/
theorem readIges_record_order_of_mixed :
    (∃ m, readIges ("WOODSHOP_IGES 1.0\nMODEL a\nVERTEX 0 0 0\nVERTEX inf 0 0\nFACE 0 1 1\n" ++
        "MODEL b\nEND-IGES\n").toList = .ok m ∧
      readIges (" WOODSHOP_IGES 1.0\r\nFACE 0  1 1\nMODEL c\n\nVERTEX 0 0 0\nFACES\n" ++
        "MODEL b\r\n\tVERTEX inf 0 0").toList = .ok m ∧ m.name.toList = ['b'] ∧
      m.mesh.vertices.toList.map some =
        [some ⟨0, 0, 0⟩, some ⟨signedFloat false infinityBits, 0, 0⟩]) ∧
    readIges "WOODSHOP_IGES 1.0\n\nVERTEX 0 0\nFACE 0 1".toList = .error (.badRecord .vertex 3) ∧
    readIges "WOODSHOP_IGES 1.0\nFACE 0 0 0\nFACE 0 0 1\n".toList = .error (.missingGeometry 0 2) ∧
    readIges "WOODSHOP_IGES 1.0\nEND-IGES\nFACE ?".toList =
      readIges "WOODSHOP_IGES 1.0\nEND-IGES\n".toList := by
  let accepted := ("WOODSHOP_IGES 1.0\nMODEL a\nVERTEX 0 0 0\nVERTEX inf 0 0\nFACE 0 1 1\n" ++
    "MODEL b\nEND-IGES\n").toList
  let mixed := (" WOODSHOP_IGES 1.0\r\nFACE 0  1 1\nMODEL c\n\nVERTEX 0 0 0\nFACES\n" ++
    "MODEL b\r\n\tVERTEX inf 0 0").toList
  let broken := "WOODSHOP_IGES 1.0\n\nVERTEX 0 0\nFACE 0 1".toList
  let faces := "WOODSHOP_IGES 1.0\nFACE 0 0 0\nFACE 0 0 1\n".toList
  have hheaders : ∀ text ∈ [accepted, mixed, broken, faces],
      trim ((lines text).headD []) = igesHeader.toList := by decide +kernel
  have hsound : ∀ line ∈ [] :: (igesTexts accepted ++ igesTexts faces),
      ¬ RecordKind.vertex.IsBroken line ∧ ¬ RecordKind.face.IsBroken line := by decide +kernel
  have hkinds : ∀ line ∈ [] :: (igesTexts accepted ++ igesTexts faces),
      ∀ kind : RecordKind, ¬ kind.IsBroken line := by
    intro line hline kind
    cases kind
    · exact (hsound line hline).1
    · exact (hsound line hline).2
  have hvertices : RecordKind.vertex.records (igesTexts mixed) =
      RecordKind.vertex.records (igesTexts accepted) ∧
      (RecordKind.vertex.records (igesTexts accepted)).map pointOfWords =
        [some ⟨0, 0, 0⟩, some ⟨signedFloat false infinityBits, 0, 0⟩] := by decide +kernel
  have hfaces : RecordKind.face.records (igesTexts mixed) =
      RecordKind.face.records (igesTexts accepted) ∧
      RecordKind.face.records (igesTexts accepted) ≠ [] := by decide +kernel
  have hname : lastName (igesTexts mixed) = lastName (igesTexts accepted) ∧
      lastName (igesTexts accepted) = ['b'] := by decide +kernel
  refine ⟨?_, ?_, ?_, ?_⟩
  · obtain ⟨-, hread, hmixed, -⟩ :=
      readIges_record_order (hheaders accepted (by simp))
    obtain ⟨-, hpresent⟩ := hread fun line hline => hkinds line (by simp [hline])
    have hsome : RecordKind.vertex.records (igesTexts accepted) ≠ [] := by
      intro hnone
      rw [hnone] at hvertices
      cases hvertices.2
    obtain ⟨m, hm, hlast, hpoints, -⟩ := hpresent hsome hfaces.2
    refine ⟨m, hm, hmixed mixed m (hheaders mixed (by simp)) ?_ hname.1 hm,
      hlast.trans hname.2, hpoints.trans hvertices.2⟩
    intro kind
    cases kind
    · exact hvertices.1
    · exact hfaces.1
  · refine (readIges_record_order (hheaders broken (by simp))).1 [[]] ["FACE 0 1".toList]
      "VERTEX 0 0".toList .vertex (by decide +kernel) ?_ (by decide +kernel)
    intro earlier hearlier
    rw [List.mem_singleton.mp hearlier]
    exact hkinds [] List.mem_cons_self
  · exact ((readIges_record_order (hheaders faces (by simp))).2.1
      fun line hline => hkinds line (by simp [hline])).1 (Or.inl (by decide +kernel))
  · have hended : trim ((lines "WOODSHOP_IGES 1.0\nEND-IGES\n".toList).headD []) =
        igesHeader.toList := by decide +kernel
    exact (readIges_record_order hended).2.2.2 [] [[]] ["FACE ?".toList] "END-IGES".toList _
      (by decide +kernel) (by decide +kernel) (by decide +kernel)

end Facet
