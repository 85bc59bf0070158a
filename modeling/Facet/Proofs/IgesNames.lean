import Facet.Proofs.IgesInterleaving
import Facet.Proofs.IgesWriting

namespace Facet

theorem pieces_ne_nil (separator : Char) (text : List Char) : pieces separator text ≠ [] := by
  cases text with
  | nil => exact List.cons_ne_nil _ _
  | cons c rest =>
    rw [pieces]
    split
    next => exact List.cons_ne_nil _ _
    next => split <;> exact List.cons_ne_nil _ _

/-- A separator keeps what is on its two sides apart. -/
theorem pieces_append_separator (separator : Char) (front rest : List Char) :
    pieces separator (front ++ separator :: rest) =
      pieces separator front ++ pieces separator rest := by
  induction front with
  | nil => exact if_pos rfl
  | cons c front ih =>
    obtain ⟨piece, others, hpieces⟩ := List.exists_cons_of_ne_nil (pieces_ne_nil separator front)
    rw [List.cons_append, pieces, pieces, ih, hpieces]
    split <;> rfl

/-- A text without separators lengthens the first piece of what follows it. -/
theorem pieces_append_of_not_mem {separator : Char} {front : List Char} (h : separator ∉ front)
    {rest piece : List Char} {others : List (List Char)}
    (hrest : pieces separator rest = piece :: others) :
    pieces separator (front ++ rest) = (front ++ piece) :: others := by
  induction front with
  | nil => exact hrest
  | cons c front ih =>
    obtain ⟨hc, hfront⟩ := not_or.mp (mt List.mem_cons.mpr h)
    rw [List.cons_append, pieces, if_neg (Ne.symm hc), ih hfront]
    rfl

/-- The lines that a name takes up behind its first one. -/
def Model.nameLines (m : Model) : List (List Char) :=
  (lines m.name.toList).tail

def Model.firstName (m : Model) : List Char :=
  (lines m.name.toList).headD []

theorem Model.lines_name (m : Model) : lines m.name.toList = m.firstName :: m.nameLines := by
  obtain ⟨piece, others, hpieces⟩ := List.exists_cons_of_ne_nil (pieces_ne_nil '\n' m.name.toList)
  rw [firstName, nameLines, lines, hpieces]
  rfl

/-- The lines of a written model behind those of its name. -/
def Model.geometryLines (m : Model) : List (List Char) :=
  m.mesh.vertices.toList.map vertexLine ++ m.mesh.triangles.toList.map faceLine

theorem igesText_eq_append (m : Model) :
    igesText m = igesHeader.toList ++ '\n' :: (nameLine m.name.toList ++
      '\n' :: (m.geometryLines ++ [igesTerminator.toList]).flatMap line) := by
  have hlines : m.igesLines = nameLine m.name.toList :: m.geometryLines := rfl
  rw [igesText_eq_lines, hlines, List.flatMap_cons, List.cons_append, List.flatMap_cons, line, line,
    List.append_assoc, List.append_assoc, List.singleton_append, List.singleton_append]

theorem feed_not_mem_geometryLines (m : Model) : ∀ text ∈ m.geometryLines, '\n' ∉ text := by
  have hname : '\n' ∉ "".toList := by decide
  have hfeeds : ∀ text ∈ (⟨"", m.mesh⟩ : Model).igesLines, '\n' ∉ text :=
    feed_not_mem_igesLines hname
  exact fun text htext => hfeeds text (List.mem_cons_of_mem _ htext)

theorem lines_nameLine (m : Model) :
    lines (nameLine m.name.toList) = nameLine m.firstName :: m.nameLines := by
  have hkeyword : '\n' ∉ "MODEL ".toList := by decide
  exact pieces_append_of_not_mem hkeyword m.lines_name

/-- The lines of a name come between the header and the vertices. -/
theorem lines_igesText_name (m : Model) :
    lines (igesText m) = igesHeader.toList ::
      (nameLine m.firstName :: m.nameLines ++
        (m.geometryLines ++ igesTerminator.toList :: [[]])) := by
  have hheader : '\n' ∉ igesHeader.toList := by decide
  have hwritten : ∀ text ∈ m.geometryLines ++ [igesTerminator.toList], '\n' ∉ text := by
    intro text htext
    rcases List.mem_append.mp htext with hmem | hmem
    · exact feed_not_mem_geometryLines m text hmem
    · rw [List.mem_singleton.mp hmem]
      decide
  have hgeometry := lines_flatMap_line hwritten
  have hname := lines_nameLine m
  rw [List.append_assoc, List.singleton_append] at hgeometry
  rw [lines] at hgeometry hname
  rw [igesText_eq_append, lines, pieces_append hheader, pieces_append_separator, hname, hgeometry]

theorem recordLines_append_of_mem {front : List (List Char)} {last : List Char}
    (hmem : last ∈ front) (hlast : trim last = igesTerminator.toList) (rest : List (List Char)) :
    recordLines (front ++ rest) = recordLines front := by
  obtain ⟨before, after, rfl⟩ := List.mem_iff_append.mp hmem
  rw [List.append_assoc, List.cons_append, recordLines_append_terminator before _ hlast,
    recordLines_append_terminator before _ hlast]

theorem recordLines_append_of_forall {front : List (List Char)}
    (h : ∀ text ∈ front, trim text ≠ igesTerminator.toList) (rest : List (List Char)) :
    recordLines (front ++ rest) = front ++ recordLines rest :=
  List.takeWhile_append_of_pos fun text htext => decide_eq_true (h text htext)

theorem nameLine_going (name : List Char) : trim (nameLine name) ≠ igesTerminator.toList :=
  (isReadFrom_nameLine name).going

theorem geometryLines_going (m : Model) :
    ∀ text ∈ m.geometryLines, trim text ≠ igesTerminator.toList := by
  intro text htext
  rcases List.mem_append.mp htext with hmem | hmem
  · obtain ⟨p, -, rfl⟩ := List.mem_map.mp hmem
    exact (isReadFrom_vertexLine p).going
  · obtain ⟨t, -, rfl⟩ := List.mem_map.mp hmem
    exact (isReadFrom_faceLine t).going

theorem igesBody_igesText (m : Model) :
    igesBody (igesText m) =
      nameLine m.firstName :: recordLines (m.nameLines ++ m.geometryLines) := by
  have hname : ∀ text ∈ [nameLine m.firstName], trim text ≠ igesTerminator.toList := by
    intro text htext
    rw [List.mem_singleton.mp htext]
    exact nameLine_going m.firstName
  have hend : trim igesTerminator.toList = igesTerminator.toList := by decide
  rw [igesBody, lines_igesText_name, List.tail_cons, ← List.append_assoc,
    recordLines_append_terminator _ _ hend, List.cons_append, ← List.singleton_append,
    recordLines_append_of_forall hname]
  rfl

/-- The lines of a name that are taken in, as they are dispatched on. -/
def Model.nameTexts (m : Model) : List (List Char) :=
  (recordLines m.nameLines).map trim

/-- What an accepted document gets from its lines, those of the name apart from the others. -/
theorem geometry_of_lines {m r : Model} {geometry : List (List Char)}
    (h : readIges (igesText m) = .ok r)
    (hbody : recordLines (m.nameLines ++ m.geometryLines) = recordLines m.nameLines ++ geometry) :
    r.mesh.vertices.toList.map some =
        (RecordKind.vertex.records m.nameTexts).map pointOfWords ++
          (geometry.filterMap (IgesLine.point? ∘ IgesLine.ofLine)).map some ∧
      r.mesh.triangles.toList.map some =
        (RecordKind.face.records m.nameTexts).map triangleOfWords ++
          (geometry.filterMap (IgesLine.triangle? ∘ IgesLine.ofLine)).map some := by
  obtain ⟨hsound, hvertices, htriangles⟩ := readIges_eq_ok h
  rw [igesBody_igesText, hbody] at hsound hvertices htriangles
  have hname : IgesLine.ofLine (nameLine m.firstName) = IgesLine.ofName m.firstName :=
    (isReadFrom_nameLine m.firstName).reads
  have hnone : (IgesLine.ofName m.firstName).point? = none ∧
      (IgesLine.ofName m.firstName).triangle? = none := by
    unfold IgesLine.ofName
    split <;> exact ⟨rfl, rfl⟩
  have hunbroken : ∀ text ∈ m.nameTexts, ∀ kind : RecordKind, ¬ kind.IsBroken text := by
    intro text htext kind hbroken
    obtain ⟨raw, hraw, rfl⟩ := List.mem_map.mp htext
    exact hsound raw (List.mem_cons_of_mem _ (List.mem_append_left _ hraw)) kind
      ((IgesLine.ofText_eq_malformed_iff kind _).mpr hbroken)
  have hlines : (recordLines m.nameLines).map IgesLine.ofLine =
      m.nameTexts.map IgesLine.ofText := by
    rw [Model.nameTexts, List.map_map]
    rfl
  constructor
  · rw [hvertices, List.filterMap_cons_none (by rw [Function.comp_apply, hname, hnone.1]),
      List.filterMap_append, List.map_append, ← List.filterMap_map, hlines,
      filterMap_point?_ofText, map_pointOfWords_records hunbroken]
  · rw [htriangles, List.filterMap_cons_none (by rw [Function.comp_apply, hname, hnone.2]),
      List.filterMap_append, List.map_append, ← List.filterMap_map, hlines,
      filterMap_triangle?_ofText, map_triangleOfWords_records hunbroken]

theorem filterMap_geometryLines (m : Model) :
    m.geometryLines.filterMap (IgesLine.point? ∘ IgesLine.ofLine) = m.mesh.vertices.toList ∧
      m.geometryLines.filterMap (IgesLine.triangle? ∘ IgesLine.ofLine) =
        m.mesh.triangles.toList := by
  have hvertex (p : Point) : IgesLine.ofLine (vertexLine p) = .vertex p :=
    (isReadFrom_vertexLine p).reads
  have hface (t : Triangle) : IgesLine.ofLine (faceLine t) = .face t :=
    (isReadFrom_faceLine t).reads
  simp [Model.geometryLines, List.filterMap_append, List.filterMap_map, Function.comp_def, hvertex,
    hface, IgesLine.point?, IgesLine.triangle?]

/-- What stands in front of the records of a model is what sets them apart from those read. -/
theorem eq_iff_of_map_some {α β : Type} {found written : Array α} {front : List β}
    {read : β → Option α}
    (h : found.toList.map some = front.map read ++ written.toList.map some) :
    found = written ↔ front = [] := by
  constructor
  · rintro rfl
    have hlength := congrArg List.length h
    simp only [List.length_append, List.length_map] at hlength
    exact List.length_eq_zero_iff.mp (by omega)
  · rintro rfl
    exact Array.toList_inj.mp (List.map_injective_iff.mpr (Option.some_injective α) h)

/-- The lines of a name behind its first one are read like any others. The vertices and faces among
them come in front of those of the model, and a terminator among them hides the model. -/
theorem iges_name_lines {m r : Model} (h : readIges (igesText m) = .ok r) :
    ((∃ text ∈ m.nameLines, trim text = igesTerminator.toList) →
      r.mesh.vertices.toList.map some =
        (RecordKind.vertex.records m.nameTexts).map pointOfWords ∧
      r.mesh.triangles.toList.map some =
        (RecordKind.face.records m.nameTexts).map triangleOfWords) ∧
    ((∀ text ∈ m.nameLines, trim text ≠ igesTerminator.toList) →
      r.mesh.vertices.toList.map some =
        (RecordKind.vertex.records m.nameTexts).map pointOfWords ++
          m.mesh.vertices.toList.map some ∧
      r.mesh.triangles.toList.map some =
        (RecordKind.face.records m.nameTexts).map triangleOfWords ++
          m.mesh.triangles.toList.map some ∧
      (r.mesh.vertices = m.mesh.vertices ↔ RecordKind.vertex.records m.nameTexts = []) ∧
      (r.mesh.triangles = m.mesh.triangles ↔ RecordKind.face.records m.nameTexts = [])) := by
  constructor
  · rintro ⟨last, hmem, hlast⟩
    have hbody : recordLines (m.nameLines ++ m.geometryLines) = recordLines m.nameLines ++ [] := by
      rw [recordLines_append_of_mem hmem hlast, List.append_nil]
    have hlines := geometry_of_lines h hbody
    simpa using hlines
  · intro hgoing
    have hall : recordLines m.nameLines = m.nameLines :=
      List.takeWhile_eq_self_iff.mpr fun text htext => decide_eq_true (hgoing text htext)
    have hgeometry : recordLines m.geometryLines = m.geometryLines :=
      List.takeWhile_eq_self_iff.mpr fun text htext =>
        decide_eq_true (geometryLines_going m text htext)
    have hbody : recordLines (m.nameLines ++ m.geometryLines) =
        recordLines m.nameLines ++ m.geometryLines := by
      rw [recordLines_append_of_forall hgoing, hgeometry, hall]
    obtain ⟨hvertices, htriangles⟩ := geometry_of_lines h hbody
    rw [(filterMap_geometryLines m).1] at hvertices
    rw [(filterMap_geometryLines m).2] at htriangles
    exact ⟨hvertices, htriangles, eq_iff_of_map_some hvertices, eq_iff_of_map_some htriangles⟩

/-- A name over two lines adds a vertex, and one with a terminator hides those of the model. -/
theorem iges_name_lines_of_two :
    (∃ r, readIges (igesText ⟨"a\nVERTEX inf 0 0",
        Mesh.ofParts #[⟨0, 0, 0⟩] #[⟨0, 0, 0⟩]⟩) = .ok r ∧
      r.mesh.vertices.toList.map some =
        [some ⟨signedFloat false infinityBits, 0, 0⟩, some ⟨0, 0, 0⟩] ∧
      r.mesh.triangles = #[⟨0, 0, 0⟩]) ∧
    (∃ r, readIges (igesText ⟨"\nVERTEX inf 0 0\nFACE 1 1 1\n END-IGES ",
        Mesh.ofParts #[⟨0, 0, 0⟩] #[⟨0, 0, 0⟩]⟩) = .ok r ∧
      r.mesh.vertices.toList.map some = [some ⟨signedFloat false infinityBits, 0, 0⟩]) := by
  let added : Model := ⟨"a\nVERTEX inf 0 0", Mesh.ofParts #[⟨0, 0, 0⟩] #[⟨0, 0, 0⟩]⟩
  let hidden : Model := ⟨"\nVERTEX inf 0 0\nFACE 1 1 1\n END-IGES ",
    Mesh.ofParts #[⟨0, 0, 0⟩] #[⟨0, 0, 0⟩]⟩
  have haccepted : (readIges (igesText added)).toOption.isSome = true ∧
      (readIges (igesText hidden)).toOption.isSome = true := by decide +kernel
  have hgoing : ∀ text ∈ added.nameLines, trim text ≠ igesTerminator.toList := by decide +kernel
  have hended : ∃ text ∈ hidden.nameLines, trim text = igesTerminator.toList := by decide +kernel
  have hpoints : (RecordKind.vertex.records added.nameTexts).map pointOfWords =
        [some ⟨signedFloat false infinityBits, 0, 0⟩] ∧
      RecordKind.face.records added.nameTexts = [] ∧
      (RecordKind.vertex.records hidden.nameTexts).map pointOfWords =
        [some ⟨signedFloat false infinityBits, 0, 0⟩] := by decide +kernel
  constructor
  · obtain ⟨r, hr⟩ := Option.isSome_iff_exists.mp haccepted.1
    have hread := eq_ok_of_toOption hr
    obtain ⟨hvertices, -, -, hfaces⟩ := (iges_name_lines hread).2 hgoing
    rw [hpoints.1] at hvertices
    exact ⟨r, hread, hvertices, hfaces.mpr hpoints.2.1⟩
  · obtain ⟨r, hr⟩ := Option.isSome_iff_exists.mp haccepted.2
    have hread := eq_ok_of_toOption hr
    obtain ⟨hvertices, -⟩ := (iges_name_lines hread).1 hended
    exact ⟨r, hread, hvertices.trans hpoints.2.2⟩

/-- A model under such a name is read back with one vertex more. -/
theorem iges_name_adds_vertex :
    ∃ r, readIges (igesText ⟨"a\nVERTEX 0 0 0",
        Mesh.ofParts #[⟨0, 0, 0⟩] #[⟨0, 0, 0⟩]⟩) = .ok r ∧
      r.mesh.vertices ≠ #[⟨0, 0, 0⟩] := by
  have hsize : (readIges (igesText ⟨"a\nVERTEX 0 0 0", Mesh.ofParts #[⟨0, 0, 0⟩]
      #[⟨0, 0, 0⟩]⟩)).toOption.map (·.mesh.vertices.size) = some 2 := by decide +kernel
  obtain ⟨r, hr, htwo⟩ := Option.map_eq_some_iff.mp hsize
  refine ⟨r, eq_ok_of_toOption hr, ?_⟩
  intro hsame
  rw [hsame] at htwo
  cases htwo

end Facet
