import Evalbox.Engine.Snippets
import Evalbox.Proofs.Config.Classpath
import Evalbox.Proofs.Diagnostics.Position
import Evalbox.Proofs.Lang.Blocks
import Evalbox.Proofs.Unit.Offsets

/-!
# Where missing imports are reported

Every import statement of a source that compiles begins with a token, in whatever blocks it stands
(`headed_of_parse`), and so behind whole lines and the front of a line (`exists_behind_of_parse`). A message about it
names that line, and as its column a number of bytes; the line is looked for by line feeds and the column in characters
(`importPoint`). So it points at the statement if there are only line feeds above and single bytes in front
(`missing_import_placed`), and else it may not (`accented_import_misplaced`).
-/

namespace Evalbox

open Text Lang

namespace Lang

open Parse

section Imports

variable {p : Nat × Stmt} {depth : Nat}

theorem mem_blockImports {ss : List Stmt} (h : p ∈ blockImports depth ss) : ∃ s ∈ ss, p ∈ s.imports depth := by
  induction ss with
  | nil => cases h
  | cons s ss ih =>
    rw [blockImports] at h
    rcases List.mem_append.mp h with h | h
    · exact ⟨s, List.mem_cons_self, h⟩
    · obtain ⟨t, ht, hp⟩ := ih h
      exact ⟨t, List.mem_cons_of_mem s ht, hp⟩

theorem mem_handlerImports {hs : List Handler} (h : p ∈ handlerImports depth hs) :
    ∃ s ∈ hs.flatMap Handler.body, p ∈ s.imports depth := by
  induction hs with
  | nil => cases h
  | cons x hs ih =>
    cases x with
    | mk sp type name b =>
    rw [handlerImports] at h
    rcases List.mem_append.mp h with h | h
    · obtain ⟨s, hs', hp⟩ := mem_blockImports h
      exact ⟨s, List.mem_append_left _ hs', hp⟩
    · obtain ⟨s, hs', hp⟩ := ih h
      exact ⟨s, List.mem_append_right b hs', hp⟩

theorem mem_caseImports {cs : List MatchCase} (h : p ∈ caseImports depth cs) :
    ∃ s ∈ cs.flatMap MatchCase.body, p ∈ s.imports depth := by
  induction cs with
  | nil => cases h
  | cons x cs ih =>
    cases x with
    | mk pattern guard b =>
    rw [caseImports] at h
    rcases List.mem_append.mp h with h | h
    · obtain ⟨s, hs', hp⟩ := mem_blockImports h
      exact ⟨s, List.mem_append_left _ hs', hp⟩
    · obtain ⟨s, hs', hp⟩ := ih h
      exact ⟨s, List.mem_append_right b hs', hp⟩

/-- The imports in a statement that is none are those of its blocks. -/
theorem Stmt.exists_nested_of_imports {s : Stmt} (hs : s.isImport = false) (h : p ∈ s.imports depth) :
    ∃ t ∈ s.nested, ∃ d, p ∈ t.imports d := by
  have hin {d : Nat} {ss : List Stmt} (h : ∃ t ∈ ss, p ∈ t.imports d) (hss : ss ⊆ s.nested) :
      ∃ t ∈ s.nested, ∃ d, p ∈ t.imports d := by
    obtain ⟨t, ht, hp⟩ := h
    exact ⟨t, hss ht, d, hp⟩
  cases s with
  | importing | importFrom => cases hs
  | ite _ _ b o | whileLoop _ _ b o | forLoop _ _ _ _ b o =>
    rw [Stmt.imports] at h
    rcases List.mem_append.mp h with h | h
    · exact hin (mem_blockImports h) (List.subset_append_left b o)
    · exact hin (mem_blockImports h) (List.subset_append_right b o)
  | tryBlock _ b hs o f =>
    rw [Stmt.imports, List.append_assoc, List.append_assoc] at h
    rcases List.mem_append.mp h with h | h
    · exact hin (mem_blockImports h) fun t ht => by simp [Stmt.nested, ht]
    rcases List.mem_append.mp h with h | h
    · exact hin (mem_handlerImports h) fun t ht => by simp [Stmt.nested, List.mem_flatMap.mp ht]
    rcases List.mem_append.mp h with h | h
    · exact hin (mem_blockImports h) fun t ht => by simp [Stmt.nested, ht]
    · exact hin (mem_blockImports h) fun t ht => by simp [Stmt.nested, ht]
  | withBlock | define | defineClass =>
    rw [Stmt.imports] at h
    exact hin (mem_blockImports h) (List.Subset.refl _)
  | matchBlock =>
    rw [Stmt.imports] at h
    exact hin (mem_caseImports h) (List.Subset.refl _)
  | _ => simp [Stmt.imports] at h

theorem mem_byDepth {α : Type} {x : α} {fuel : Nat} {xs : List (Nat × α)} (h : x ∈ byDepth fuel depth xs) :
    ∃ d, (d, x) ∈ xs := by
  induction fuel generalizing depth with
  | zero => cases h
  | succ fuel ih =>
    rw [byDepth] at h
    rcases List.mem_append.mp h with h | h
    · obtain ⟨⟨d, y⟩, hy, rfl⟩ := List.mem_map.mp h
      exact ⟨d, List.mem_of_mem_filter hy⟩
    · exact ih h

end Imports

/-- A statement begins where a token begins. -/
def Stmt.Headed (tokens : Array Token) (s : Stmt) : Prop :=
  ∃ t ∈ tokens, P.isLayout t.lexeme = false ∧ s.span.start = (P.spanOf t).start

/-- All import statements in a statement begin where tokens begin. -/
def Stmt.ImportsHeaded (tokens : Array Token) (s : Stmt) : Prop := ∀ depth, ∀ p ∈ s.imports depth, p.2.Headed tokens

theorem importsHeaded_inherited (tokens : Array Token) : Stmt.Inherited (Stmt.ImportsHeaded tokens) := by
  intro s hs hin depth p hp
  obtain ⟨t, ht, d, hp⟩ := Stmt.exists_nested_of_imports hs hp
  exact hin t ht d p hp

theorem importStatement_headed (env : Parse.Env) : P.Answers env P.importStatement (Stmt.ImportsHeaded env.tokens) := by
  have hspanned {k : Keyword} {q : P (Span → Stmt)}
      (hq : P.Answers env q fun f => ∀ sp, (f sp).span = sp ∧ ∀ depth, (f sp).imports depth = [(depth, f sp)]) :
      P.Answers env (P.spanned (P.word k >>= fun _ => q)) (Stmt.ImportsHeaded env.tokens) := by
    intro st s st' h depth p hp
    obtain ⟨t, st₁, f, st₂, sp, ht, hmark, hf, hstart, rfl⟩ := P.spanned_ok h
    obtain ⟨a, st₃, ha, hf⟩ := P.bind_ok hf
    obtain ⟨u, hu, hword⟩ := P.word_ok ha
    obtain rfl : u = t := Option.some.inj (hu.symm.trans (hmark ▸ ht))
    obtain ⟨hspan, himports⟩ := hq _ _ _ hf sp
    obtain rfl := List.mem_singleton.mp (himports depth ▸ hp)
    exact ⟨u, Array.mem_of_getElem? ht, by rw [hword]; rfl, hspan.symm ▸ hstart⟩
  refine .orElse (hspanned ?_) (.orElse (hspanned ?_) (hspanned ?_))
  all_goals
    repeat refine .then_ fun _ => ?_
    exact .pure fun sp => ⟨rfl, fun depth => by rw [Stmt.imports]⟩

/-- The import statements of a program begin where tokens begin, wherever they stand. -/
theorem headed_of_parse {text : List Char} {bdfl : Bool} {body : List Stmt} (h : (parse text bdfl).1 = .ok body)
    {s : Stmt} (hs : s ∈ importStatements body) : s.Headed (TokenStream.ofText text).tokens := by
  obtain ⟨d, hs⟩ := mem_byDepth hs
  obtain ⟨t, ht, hp⟩ := mem_blockImports hs
  have : Fact ((prepare text ⟨0, 0, 0⟩ false bdfl).1.explain = false) := ⟨rfl⟩
  have hall := forall_of_parse (importsHeaded_inherited (TokenStream.ofText text).tokens)
    (.of_answers (by unfold P.importStatement; infer_instance) (importStatement_headed _)) h
  exact hall t ht 0 _ hp

theorem Stmt.importedRoots_place {s : Stmt} {r : ImportedRoot} (h : r ∈ s.importedRoots) :
    r.line = s.span.start.line ∧ r.column = s.span.start.byte := by
  unfold Stmt.importedRoots at h
  split at h
  · obtain ⟨a, -, rfl⟩ := List.mem_map.mp h
    exact ⟨rfl, rfl⟩
  · split at h
    · cases h
    · obtain rfl := List.mem_singleton.mp h
      exact ⟨rfl, rfl⟩
  · cases h

end Lang

/-- A statement of a source begins behind whole lines, and behind the front of a line of its own. -/
structure Lang.Stmt.BeginsBehind (source : List Char) (s : Stmt) (above row : List Char) : Prop where
  cut : ∃ c after, Cut source above row c after
  line : s.span.start.line = (sourceLines above).length + 1
  byte : s.span.start.byte = byteLength row

theorem exists_behind_of_parse {source : List Char} {bdfl : Bool} {body : List Stmt}
    (h : (parse source bdfl).1 = .ok body) {s : Stmt} (hs : s ∈ importStatements body) :
    ∃ above row, s.BeginsBehind source above row := by
  obtain ⟨t, ht, hlayout, hstart⟩ := headed_of_parse h hs
  obtain ⟨above, row, c, after, hcut, hline, hbyte⟩ := exists_cut_of_token ht hlayout
  exact ⟨above, row, ⟨c, after, hcut⟩, hstart ▸ hline, hstart ▸ hbyte⟩

/-! ## Where a message about an import points -/

/-- Where a message points that is about a statement behind `above` and `row`: lines that end in a lone carriage return
are counted in its line, but not when that line is looked for, and its column is a number of bytes. -/
def importPoint (source above row : List Char) : Nat :=
  min (lineStart source (nearestLine source (above.count '\n' + loneReturns above + 1 : Nat)) + byteLength row)
    source.length

section Point

variable {source above row after : List Char} {c : Char}

theorem Cut.length_sourceLines (h : Cut source above row c after) :
    (sourceLines above).length = above.count '\n' + loneReturns above := by
  rw [← length_rows h.closed, rows, List.length_map]

theorem Cut.openRow_above (h : Cut source above row c after) (hlone : loneReturns above = 0) : openRow above = [] := by
  rcases h.closed with rfl | ⟨d, hd, hb⟩
  · rfl
  · rcases (by simpa [isSourceBreak] using hb : d = '\n' ∨ d = '\r') with rfl | rfl
    · obtain ⟨front, rfl⟩ := List.getLast?_eq_some_iff.mp hd
      exact openRow_feed front
    · exact absurd hd (getLast?_ne_return hlone)

/-- Where all lines above end in a line feed, a message points as far behind the statement as there are bytes in front
of it that are no characters of their own. -/
theorem Cut.importPoint_eq (h : Cut source above row c after) (hlone : loneReturns above = 0) :
    importPoint source above row = min (above.length + byteLength row) source.length := by
  have hline : lineStart source (above.count '\n' + 1) = above.length := by
    have hstart := lineStart_append above (row ++ c :: after)
    rwa [h.openRow_above hlone, List.length_nil, Nat.add_zero, ← List.append_assoc, ← h.text] at hstart
  have hnear : nearestLine source (above.count '\n' + 1 : Nat) = above.count '\n' + 1 := by
    have hcount : above.count '\n' + 1 ≤ lineCount source := by
      rw [lineCount, h.text, List.count_append, List.count_append]
      omega
    rw [nearestLine]
    omega
  rw [importPoint, hlone, Nat.add_zero, hnear, hline]

theorem Cut.importPoint_exact (h : Cut source above row c after) (hlone : loneReturns above = 0) :
    importPoint source above row = (above ++ row).length ↔ ∀ d ∈ row, d.toNat < 128 := by
  have hlen : above.length + row.length < source.length := by
    rw [h.text, List.length_append, List.length_append, List.length_cons]
    omega
  have hle := length_le_byteLength row
  rw [← byteLength_eq_length_iff, h.importPoint_eq hlone, List.length_append]
  omega

end Point

/-- What is said about an import of a module that is not found. -/
def missingText (root : String) : String := "module '" ++ root ++ "' not found on classpath"

theorem missingText_injective : Function.Injective missingText := by
  intro a b h
  have hl := congrArg String.toList h
  simp only [missingText, String.toList_append] at hl
  exact String.toList_injective (List.append_cancel_left (List.append_cancel_right hl))

/-- What begins with another letter is something else. -/
theorem ne_missingText {text : String} {c : Char} (htext : text.toList.head? = some c) (hc : c ≠ 'm') (root : String) :
    text ≠ missingText root := by
  rintro rfl
  refine hc (Option.some.inj (htext.symm.trans ?_))
  simp [missingText]

theorem append_ne_missingText {front : String} {c : Char} (hfront : front.toList.head? = some c) (hc : c ≠ 'm')
    (text root : String) : front ++ text ≠ missingText root :=
  ne_missingText (by rw [String.toList_append, List.head?_append, hfront]; rfl) hc root

/-- Nothing else is said in these words: other texts begin with the name of a class. -/
theorem Findings.exists_unresolved {f : Findings} {o : CompilerOptions} {m : Message} {root : String}
    (hm : m ∈ f.messages o) (htext : m.text = missingText root) :
    ∃ i ∈ f.unresolved, i.root = root ∧ m = i.message o.fatalWarnings := by
  rw [messages] at hm
  rcases List.mem_append.mp hm with hm | hm
  · rcases List.mem_append.mp hm with hm | hm
    · obtain ⟨r, -, rfl⟩ := List.mem_map.mp hm
      cases r with
      | nullCharacter => exact absurd htext (ne_missingText (show nullText.toList.head? = some 's' from rfl) (by decide) root)
      | rejected r =>
        refine absurd htext ?_
        rw [Refusal.message, String.append_assoc]
        cases r.kind with
        | grammar => exact append_ne_missingText rfl (by decide) _ _
        | indentation => exact append_ne_missingText rfl (by decide) _ _
        | tabs => exact append_ne_missingText rfl (by decide) _ _
    · obtain ⟨w, -, rfl⟩ := List.mem_map.mp (List.mem_ite_nil_left.mp hm).2
      refine absurd htext ?_
      rw [Warning.message, String.append_assoc]
      cases w.kind with
      | deprecation => exact append_ne_missingText rfl (by decide) _ _
      | grammar => exact append_ne_missingText rfl (by decide) _ _
  · obtain ⟨i, hi, rfl⟩ := List.mem_map.mp (List.mem_ite_nil_right.mp hm).2
    exact ⟨i, hi, missingText_injective htext, rfl⟩

theorem Findings.exists_statement_of_unresolved {resolves : String → Bool} {source : List Char} {filename : String}
    {optimize : Int} {futureFlags : Nat} {i : ImportedRoot}
    (hi : i ∈ (ofSource resolves source filename optimize futureFlags).unresolved) :
    ∃ body, (parse source (hasFeature futureFlags bdflFlag)).1 = .ok body ∧
      ∃ s ∈ importStatements body, i ∈ s.importedRoots := by
  unfold ofSource at hi
  split at hi
  · cases hi
  · rename_i body ws hparse
    dsimp only at hi
    split at hi
    · cases hi
    · obtain ⟨s, hs, hi⟩ := List.mem_flatMap.mp (List.mem_of_mem_filter hi)
      exact ⟨body, by rw [hparse], s, hs, hi⟩

/-- A message is about a module that a statement behind `above` and `row` imports. -/
structure Message.AboutImport (m : Message) (source : List Char) (root : String) (s : Stmt) (above row : List Char) :
    Prop where
  imports : ∃ i ∈ s.importedRoots, i.root = root
  begins : s.BeginsBehind source above row
  /-- It has no extent. -/
  position : m.position? source = some ⟨importPoint source above row, importPoint source above row,
    importPoint source above row, nearestLine source (above.count '\n' + loneReturns above + 1 : Nat)⟩
  /-- With only line feeds above it points at the statement exactly if the characters in front of that on its line have
  one byte each. -/
  exact : loneReturns above = 0 → (importPoint source above row = (above ++ row).length ↔ ∀ c ∈ row, c.toNat < 128)

theorem aboutImport_message {i : ImportedRoot} {s : Stmt} {source above row : List Char} (hi : i ∈ s.importedRoots)
    (hs : s.BeginsBehind source above row) (fatal : Bool) :
    (i.message fatal).AboutImport source i.root s above row := by
  obtain ⟨hline, hcolumn⟩ := Stmt.importedRoots_place hi
  obtain ⟨c, after, hcut⟩ := hs.cut
  refine ⟨⟨i, hi, rfl⟩, hs, ?_, hcut.importPoint_exact⟩
  have hrow : (i.line : Int) = ((above.count '\n' + loneReturns above + 1 : Nat) : Int) := by
    rw [hline, hs.line, hcut.length_sourceLines]
  have hpos : 1 ≤ ((above.count '\n' + loneReturns above + 1 : Nat) : Int) := by omega
  have hpoint : offsetOf (newlineStarts source) source.length ((above.count '\n' + loneReturns above + 1 : Nat) : Int)
      (i.message fatal).column = importPoint source above row := by
    have hbehind : columnsBehind (i.message fatal).column = byteLength row := by
      rw [← hs.byte, ← hcolumn]
      change ((i.column : Int) + 1 - 1).toNat = i.column
      omega
    rw [offsetOf_eq, hbehind, importPoint]
  have hstop : (i.message fatal).stop? source = none := rfl
  rw [Message.position?_of_line (congrArg some hrow) hpos hpoint, hstop, Option.getD_none, Nat.max_self]

/-- That a module is not found is said of an import statement of the source, which compiles, wherever it stands. -/
theorem missing_import_placed (r : CompileRequest) (policies : List Policy) (o : Outside) {m : Message} {root : String}
    (hm : m ∈ (compileSnippet r policies o).1.messages) (htext : m.text = missingText root) :
    ∃ body, (parse r.source (hasFeature r.options.futureFlags bdflFlag)).1 = .ok body ∧
      ∃ s ∈ importStatements body, ∃ above row, m.AboutImport r.source root s above row := by
  unfold compileSnippet at hm
  split at hm
  · cases hm
  · obtain ⟨i, hi, rfl, rfl⟩ := Findings.exists_unresolved hm htext
    obtain ⟨body, hbody, s, hs, his⟩ := Findings.exists_statement_of_unresolved hi
    obtain ⟨above, row, hbegins⟩ := exists_behind_of_parse hbody hs
    exact ⟨body, hbody, s, hs, above, row, aboutImport_message his hbegins _⟩

/-- Without a classpath nothing is searched: only modules of the host are found. -/
theorem resolves_nowhere (o : Outside) : o.resolves "" = Host.offers := by
  have hnone : classpathEntries "" = [] := by
    rw [classpathEntries_eq]
    decide
  funext root
  rw [Outside.resolves, hnone]
  exact Bool.or_false (Host.offers root)

theorem messages_nowhere (source : List Char) (filename : String) (options : CompilerOptions) (o : Outside) :
    (compileSnippet ⟨source, filename, "", options⟩ [] o).1.messages =
      (Findings.ofSource Host.offers source filename options.optimize options.futureFlags).messages options := by
  have haudit : Policy.auditFault [].head? ⟨"compile", [.text (String.ofList source), .text filename]⟩ = none := rfl
  simp only [compileSnippet, haudit, resolves_nowhere]

/-- An import in a block, and the offset of its first letter. -/
theorem nested_import_placed :
    let r : CompileRequest := ⟨"if 1:\n  import zz".toList, "<demo>", "", .default⟩
    let m : Message := ⟨Level.warning, missingText "zz", some 2, some 3, none, none⟩
    m.position? r.source = some ⟨8, 8, 8, 2⟩ ∧
      ∃ body, (parse r.source (hasFeature r.options.futureFlags bdflFlag)).1 = .ok body ∧
        ∃ s ∈ importStatements body, ∃ above row, m.AboutImport r.source "zz" s above row := by
  refine ⟨by decide +kernel, missing_import_placed _ [] default ?_ rfl⟩
  rw [messages_nowhere]
  decide +kernel

/-- The column of the statement counts both bytes of the letter in front of it. -/
theorem accented_import_misplaced :
    let r : CompileRequest := ⟨"'\u00e9'; import zz".toList, "<demo>", "", .default⟩
    (parse r.source false).1.toOption.map (fun body => (importStatements body).map (·.span.start)) =
        some [⟨1, 5, 6⟩] ∧
      Place.At r.source ⟨1, 5, 6⟩ 5 ∧
      (compileSnippet r [] default).1.messages.map (fun m => (m.text, (m.position? r.source).map (·.start))) =
        [(missingText "zz", some 6)] := by
  refine ⟨by decide +kernel, ⟨0, _, 5, rfl, rfl, by decide, by decide, by decide⟩, ?_⟩
  rw [messages_nowhere]
  decide +kernel

/-- A lone carriage return is counted in the line of a statement, but no line begins behind it. -/
example : ((Findings.ofSource Host.offers "x = 1\rimport zz".toList "<demo>" (-1) 0).messages .default).map
    (fun m => (m.line, m.position? "x = 1\rimport zz".toList)) = [(some 2, some ⟨0, 0, 0, 1⟩)] := by
  decide +kernel

end Evalbox
