import Facet.Proofs.IgesInterleaving

namespace Facet

theorem not_mem_of_mem_pieces {separator : Char} {text piece : List Char}
    (h : piece ∈ pieces separator text) : separator ∉ piece := by
  induction text generalizing piece with
  | nil =>
    rw [List.mem_singleton.mp h]
    exact List.not_mem_nil
  | cons c rest ih =>
    rw [pieces] at h
    split at h
    next =>
      rcases List.mem_cons.mp h with rfl | hrest
      · exact List.not_mem_nil
      · exact ih hrest
    next hc =>
      split at h
      next =>
        rw [List.mem_singleton.mp h]
        simpa using Ne.symm hc
      next first others hpieces =>
        rw [hpieces] at ih
        rcases List.mem_cons.mp h with rfl | hother
        · simpa using ⟨Ne.symm hc, ih List.mem_cons_self⟩
        · exact ih (List.mem_cons_of_mem first hother)

theorem feed_not_mem_igesTexts {text line : List Char} (h : line ∈ igesTexts text) :
    '\n' ∉ line := by
  obtain ⟨raw, hraw, rfl⟩ := List.mem_map.mp h
  have hlines : raw ∈ lines text :=
    List.mem_of_mem_tail ((List.takeWhile_prefix _).subset hraw)
  exact fun hfeed => not_mem_of_mem_pieces hlines (mem_of_mem_trim hfeed)

/-- A name in a document: it is on one line, and the blanks behind it are gone with those of the
line. -/
structure IsLineName (name : List Char) : Prop where
  one_line : '\n' ∉ name
  last : ∀ c ∈ name.getLast?, isBlank c = false

theorem isLineName_nil : IsLineName [] :=
  ⟨List.not_mem_nil, fun _ hc => nomatch hc⟩

/-- A line without blanks at its end has a name behind the keyword, or it would end in the blank of
the keyword. -/
theorem isLineName_of_nameOfText? {text name : List Char} (hfeed : '\n' ∉ text)
    (hlast : ∀ c ∈ text.getLast?, isBlank c = false) (h : nameOfText? text = some name) :
    IsLineName name := by
  obtain rfl := List.isPrefixOf?_eq_some_iff_append_eq.mp h
  refine ⟨fun hmem => hfeed (List.mem_append_right _ hmem), fun c hc => hlast c ?_⟩
  rw [List.getLast?_append, Option.mem_def.mp hc]
  rfl

theorem isLineName_lastName (text : List Char) : IsLineName (lastName (igesTexts text)) := by
  unfold lastName
  cases hlast : ((igesTexts text).filterMap nameOfText?).getLast? with
  | none => exact isLineName_nil
  | some name =>
    obtain ⟨line, hline, hname⟩ := List.mem_filterMap.mp (List.mem_of_getLast? hlast)
    obtain ⟨raw, -, rfl⟩ := List.mem_map.mp hline
    exact isLineName_of_nameOfText? (feed_not_mem_igesTexts hline) (isTrimOf_trim raw).last hname

/-- A model that an IGES document holds without loss. -/
structure Model.IsBare (m : Model) : Prop where
  name : IsLineName m.name.toList
  vertices : m.mesh.vertices.size ≠ 0
  triangles : m.mesh.triangles.size ≠ 0
  normals : m.mesh.normals = none

/-- Whatever is read is bare, however the document is laid out. -/
theorem isBare_of_readIges {text : List Char} {m : Model} (h : readIges text = .ok m) :
    m.IsBare := by
  have hsound : ∀ line ∈ igesTexts text, ∀ kind : RecordKind, ¬ kind.IsBroken line := by
    intro line hline kind hbroken
    obtain ⟨raw, hraw, rfl⟩ := List.mem_map.mp hline
    exact (readIges_eq_ok h).1 raw hraw kind ((IgesLine.ofText_eq_malformed_iff kind _).mpr hbroken)
  have hpoints := congrArg List.length (map_pointOfWords_records hsound)
  have htriangles := congrArg List.length (map_triangleOfWords_records hsound)
  rw [List.length_map, List.length_map] at hpoints htriangles
  rw [readIges_of_unbroken (header_of_readIges h) hsound] at h
  split at h
  next => cases h
  next hcounts =>
    obtain ⟨hvertices, hfaces⟩ := not_or.mp hcounts
    cases Except.ok.inj h
    refine ⟨?_, ?_, ?_, rfl⟩
    · rw [String.toList_ofList]
      exact isLineName_lastName text
    · rwa [← hpoints] at hvertices
    · rwa [← htriangles] at hfaces

/-- A bare model is read back as it was written. -/
theorem Model.IsBare.readIges_igesText {m : Model} (h : m.IsBare) :
    readIges (igesText m) = .ok m := by
  obtain ⟨name, vertices, triangles, normals, hsize⟩ := m
  obtain rfl : normals = none := h.normals
  rw [Facet.readIges_igesText _ h.name.one_line, if_neg (not_or.mpr ⟨h.vertices, h.triangles⟩),
    trimEnd_of_last h.name.last, String.ofList_toList]
  rfl

/-- To read a document and to write what was read settles it: the same model is read from the
outcome. -/
theorem iges_reload {text : List Char} {m : Model} (h : readIges text = .ok m) :
    0 < m.mesh.vertices.size ∧ 0 < m.mesh.triangles.size ∧ '\n' ∉ m.name.toList ∧
      (∀ c ∈ m.name.toList.getLast?, isBlank c = false) ∧ m.mesh.normals = none ∧
      readIges (igesText m) = .ok m := by
  have hbare := isBare_of_readIges h
  exact ⟨Nat.pos_of_ne_zero hbare.vertices, Nat.pos_of_ne_zero hbare.triangles, hbare.name.one_line,
    hbare.name.last, hbare.normals, hbare.readIges_igesText⟩

/-- Two names, blanks and carriage returns inside and around them, a vertex with a field too many,
and records behind the terminator. -/
theorem iges_reload_untidy :
    ∃ m, readIges ("\t WOODSHOP_IGES 1.0\r\nMODEL old\n\n MODEL  part\r7 \r\nFACE 9 9 9 9\n" ++
        "VERTEX NaN -0\t-inf 4\nEND-IGES\nVERTEX\n VERTEX x\n").toList = .ok m ∧
      m.name = " part\r7" ∧ m.mesh.normals = none ∧ readIges (igesText m) = .ok m := by
  have haccepted : (readIges ("\t WOODSHOP_IGES 1.0\r\nMODEL old\n\n MODEL  part\r7 \r\nFACE 9 9 9 9\n" ++
      "VERTEX NaN -0\t-inf 4\nEND-IGES\nVERTEX\n VERTEX x\n").toList).toOption.map Model.name =
        some " part\r7" := by
    decide +kernel
  obtain ⟨m, hm, hname⟩ := Option.map_eq_some_iff.mp haccepted
  have hread := eq_ok_of_toOption hm
  obtain ⟨-, -, -, -, hnormals, hsame⟩ := iges_reload hread
  exact ⟨m, hread, hname, hnormals, hsame⟩

end Facet
