import ComponentPipeline.Proofs.Document.CompletionOrder
import ComponentPipeline.Proofs.Document.Plan

/-!
# Elements in the content of a block

Scripts and styles are looked for each on their own, so that an element in the
content of a script or style is processed as a block as well.  Splicing passes it
over: it starts before the end of the block around it.  So elements that lie in
blocks which are written change neither the text of the output nor its map.  But
the run fails if one of them does, and lists the files that they report.
-/

namespace ComponentPipeline

/-! ## Sorting and leaving out -/

/-- Leaving items out of a sorted list is sorting what is left. -/
theorem filter_mergeSort
    {α : Type}
    {le : α → α → Bool}
    (trans : ∀ first second third,
      le first second = true → le second third = true → le first third = true)
    (total : ∀ first second, (le first second || le second first) = true)
    (stays : α → Bool)
    (items : List α) :
    (items.mergeSort le).filter stays = (items.filter stays).mergeSort le := by
  induction items with
  | nil => simp
  | cons item rest ih =>
      obtain ⟨smaller, others, sorted, restSorted, behind⟩ :=
        List.mergeSort_cons trans total item rest
      rw [restSorted, List.filter_append] at ih
      rw [sorted, List.filter_append, List.filter_cons, List.filter_cons]
      split
      · -- The item stands behind those of the rest that are smaller, among the items
        -- that are left as among all.
        obtain ⟨smallerLeft, othersLeft, sortedLeft, restLeft, behindLeft⟩ :=
          List.mergeSort_cons trans total item (rest.filter stays)
        have upFrom {first later : List α}
            (inOrder : (first ++ item :: later).Pairwise fun one other => le one other = true)
            (before : ∀ one ∈ first, (!le item one) = true) :
            (first ++ later).takeWhile (fun one => !le item one) = first := by
          rw [List.takeWhile_append_of_pos before]
          have fromItem := List.pairwise_cons.mp (List.pairwise_append.mp inOrder).2.1
          cases later with
          | nil => simp
          | cons next more => simp [fromItem.1 next List.mem_cons_self]
        have inOrder := List.pairwise_mergeSort trans total (item :: rest)
        have inOrderLeft := List.pairwise_mergeSort trans total (item :: rest.filter stays)
        rw [sorted] at inOrder
        rw [sortedLeft] at inOrderLeft
        have stillInOrder : (smaller.filter stays ++ item :: others.filter stays).Pairwise
            fun one other => le one other = true := by
          refine inOrder.sublist ?_
          exact List.filter_sublist.append (List.filter_sublist.cons_cons item)
        have same : smaller.filter stays = smallerLeft := by
          rw [← upFrom stillInOrder fun one member => behind one (List.mem_of_mem_filter member),
            ← upFrom inOrderLeft behindLeft, ih, restLeft]
        rw [restLeft, same] at ih
        rw [sortedLeft, same, List.append_cancel_left ih]
      · exact ih

/-! ## Blocks in the content of a block -/

/-- The script and style blocks of a document whose results are written: by
increasing start, scripts before styles, those that do not start before the end of
an earlier one. -/
def writtenBlocks (document : Text) (filename : Path) : List FoundBlock :=
  keptFrom (fun found => found.block.span) 0
    ((findBlocks document .script filename ++ findBlocks document .style filename).mergeSort
      fun first second => first.block.span.start ≤ second.block.span.start)

/-- The block of a script or style element that lies wholly in the content of
another block. -/
inductive FoundBlock.Holds (document : Text) (filename : Path) (outer : FoundBlock) :
    FoundBlock → Prop
  | element {kind offset element}
      (notMarkup : kind ≠ .markup)
      (found : (offset, element) ∈ elementsOf kind.tagName document)
      (behindStart : outer.block.span.start ≤ offset)
      (beforeEnd : offset + Text.size (element.text kind.tagName) ≤
        outer.block.span.start + Text.size outer.block.content) :
      Holds document filename outer (.ofElement document filename kind offset element)

/-- A block lies in the content of a block that is written. -/
def FoundBlock.IsNested (document : Text) (filename : Path) (inner : FoundBlock) : Prop :=
  ∃ outer ∈ writtenBlocks document filename, outer.Holds document filename inner

section Nested

variable {document : Text} {filename : Path}

theorem exists_kind_of_mem
    {found : FoundBlock}
    (member : found ∈ findBlocks document .script filename ++
      findBlocks document .style filename) :
    ∃ kind, kind ≠ .markup ∧ found ∈ findBlocks document kind filename := by
  rcases List.mem_append.mp member with script | style
  · exact ⟨.script, by decide, script⟩
  · exact ⟨.style, by decide, style⟩

/-- A block that is in the content of another one starts inside the part that the
other one replaces. -/
theorem FoundBlock.Holds.starts_inside
    {outer inner : FoundBlock}
    (stands : outer.Stands document)
    (holds : outer.Holds document filename inner) :
    outer.block.span.start < inner.block.span.start ∧
      inner.block.span.start < outer.block.span.stop := by
  cases holds with
  | @element kind offset element notMarkup found behindStart beforeEnd =>
      have notEmpty := element.size_text_pos kind.tagName
      have outerStop : outer.block.span.start + Text.size outer.block.content =
          outer.block.span.stop := by
        cases stands with
        | betweenTags covers _ _ _ _ =>
            obtain ⟨-, start, stop⟩ := covers
            rw [stop, Text.size_append, start]
        | selfClosing covers content _ _ =>
            rw [content, Text.size_nil] at beforeEnd
            omega
      rw [outerStop] at beforeEnd
      obtain ⟨attributes, content⟩ := element
      cases content with
      | some content =>
          have opened := Element.size_openingTag_pos kind.tagName ⟨attributes, some content⟩
          have closed := Element.size_closingTag_pos kind.tagName
          rw [ofElement_of_content notMarkup rfl]
          rw [Element.text, Text.size_append, Text.size_append] at beforeEnd
          constructor <;> simp only <;> omega
      | none =>
          have longer := Element.two_lt_size_text kind.tagName attributes
          rw [ofElement_of_selfClosing notMarkup rfl]
          constructor <;> simp only <;> omega

/-- A block in the content of a block that is written is not written itself. -/
theorem FoundBlock.IsNested.not_mem_writtenBlocks
    {inner : FoundBlock}
    (nested : inner.IsNested document filename) :
    inner ∉ writtenBlocks document filename := by
  obtain ⟨outer, written, holds⟩ := nested
  have stands : ∀ found ∈ (findBlocks document .script filename ++
        findBlocks document .style filename).mergeSort
          (fun first second => first.block.span.start ≤ second.block.span.start),
      found.Stands document := by
    intro found sorted
    obtain ⟨kind, notMarkup, member⟩ := exists_kind_of_mem (List.mem_mergeSort.mp sorted)
    exact stands_of_mem_findBlocks notMarkup member
  obtain ⟨behindStart, beforeStop⟩ :=
    holds.starts_inside (stands outer (mem_of_mem_keptFrom written))
  refine not_mem_keptFrom_of_starts_inside (fun found sorted => ?_) written behindStart beforeStop
  obtain ⟨before, inside, after, -, start, stop⟩ := (stands found sorted).exists_covers
  rw [start, stop, Text.size_append]
  exact Nat.le_add_right _ _

end Nested

/-! ## Splicing without some of the replacements -/

/-- Items whose replacements are not kept can be left out of a splice. -/
theorem splice_map_filter
    {α : Type}
    {document : Text}
    {items : List α}
    {replacementOf : α → Replacement}
    (placed : ∀ item ∈ items, ∃ before inside after,
      (replacementOf item).span.Covers document before inside after)
    {stays : α → Bool}
    (kept : ∀ item ∈ keptFrom (fun item => (replacementOf item).span) 0
        (items.mergeSort fun first second =>
          (replacementOf first).span.start ≤ (replacementOf second).span.start),
      stays item = true)
    (filename projectRoot : Path)
    (withMap : Bool) :
    splice document filename projectRoot ((items.filter stays).map replacementOf) withMap =
      splice document filename projectRoot (items.map replacementOf) withMap := by
  have sorted (some : List α) : byStart (some.map replacementOf) =
      (some.mergeSort fun first second =>
        (replacementOf first).span.start ≤ (replacementOf second).span.start).map
          replacementOf := by
    symm
    apply List.map_mergeSort
    intros
    rfl
  have placedOf {some : List α} (among : ∀ item ∈ some, item ∈ items) :
      ∀ replacement ∈ some.map replacementOf, ∃ before inside after,
        replacement.span.Covers document before inside after := by
    intro replacement member
    obtain ⟨item, isItem, rfl⟩ := List.mem_map.mp member
    exact placed item (among item isItem)
  have samePlan : splicePlan document ((items.filter stays).map replacementOf) =
      splicePlan document (items.map replacementOf) := by
    rw [splicePlan, splicePlan, sorted, sorted, ← filter_mergeSort,
      ← planFrom_keptFrom (placedOf ?_), ← planFrom_keptFrom (placedOf ?_), keptFrom_map,
      keptFrom_map, keptFrom_filter kept]
    · intro item member
      exact List.mem_mergeSort.mp member
    · intro item member
      exact List.mem_mergeSort.mp (List.mem_of_mem_filter member)
    · intro first second third before behind
      simp only [decide_eq_true_eq] at before behind ⊢
      omega
    · intro first second
      simp only [Bool.or_eq_true, decide_eq_true_eq]
      omega
  simp only [splice, samePlan]

namespace Preprocessor

variable {preprocessor : Preprocessor} {schedule : Schedule} {filename : Path}

/-! ## Runs on some of the blocks -/

/-- Processes given blocks concurrently. -/
def processFound
    (preprocessor : Preprocessor)
    (schedule : Schedule)
    (found : List FoundBlock) :
    Outcome (List (FoundBlock × BlockOutput)) := do
  let outputs ← collect schedule (found.map fun found => preprocessor.processBlock found.block)
  return found.zip outputs

/-- The output for processed scripts and styles. -/
def assemble
    (preprocessor : Preprocessor)
    (filename : Path)
    (markup : MarkupOutput)
    (scripts styles : List (FoundBlock × BlockOutput)) :
    Outcome Output := do
  let processed := scripts ++ styles
  let (code, map) ← Outcome.ofExcept <|
    splice markup.code filename (projectRootOf filename)
      (processed.map fun (found, output) => output.replacement found)
      preprocessor.options.sourceMap
  let map ← Outcome.ofExcept (finalMap map markup.map filename)
  let dependencies :=
    markup.dependencies ++ processed.flatMap fun (_, output) => output.dependencies
  return {
    code
    dependencies := distinctPaths dependencies
    map
    invocations :=
      markup.invocations ++
        byTurn (scripts.flatMap fun (_, output) => output.invocations) ++
        byTurn (styles.flatMap fun (_, output) => output.invocations) }

/-- Preprocesses a component, but only those of its scripts and styles that
stay. -/
def preprocessOnly
    (preprocessor : Preprocessor)
    (stays : FoundBlock → Bool)
    (schedule : Schedule)
    (content : Text)
    (filename : Path) :
    Outcome Output := do
  let document ← Outcome.ofExcept (preprocessor.applyHook content filename)
  let markup ← preprocessor.processMarkup document filename
  let scripts ← preprocessor.processFound schedule
    ((findBlocks markup.code .script filename).filter stays)
  let styles ← preprocessor.processFound schedule
    ((findBlocks markup.code .style filename).filter stays)
  preprocessor.assemble filename markup scripts styles

/-- Preprocessing is preprocessing with all scripts and styles. -/
theorem preprocessOnly_all
    (preprocessor : Preprocessor)
    (schedule : Schedule)
    (content : Text)
    (filename : Path) :
    preprocessor.preprocessOnly (fun _ => true) schedule content filename =
      preprocessor.preprocess schedule content filename := by
  simp only [preprocessOnly, List.filter_true]
  rfl

/-- Blocks paired with what their work comes to. -/
def AreProcessed
    (preprocessor : Preprocessor)
    (processed : List (FoundBlock × BlockOutput)) :
    Prop :=
  ∀ pair ∈ processed, (preprocessor.processBlock pair.1.block).value? = some (.ok pair.2)

theorem areProcessed_of_processFound
    {found : List FoundBlock}
    {processed : List (FoundBlock × BlockOutput)}
    (finished : preprocessor.processFound schedule found = .finished processed) :
    processed.map Prod.fst = found ∧ preprocessor.AreProcessed processed := by
  obtain ⟨outputs, collected, paired⟩ := Outcome.bind_eq_finished_iff.mp finished
  cases Outcome.pure_eq_finished_iff.mp paired
  have completed := List.forall₂_map_left_iff.mp (forall₂_of_collect collected)
  exact ⟨List.map_fst_zip (Nat.le_of_eq completed.length_eq),
    fun pair member => List.forall₂_zip completed member⟩

/-- What blocks come to is determined by the blocks. -/
theorem AreProcessed.unique
    {processed processedToo : List (FoundBlock × BlockOutput)}
    (areProcessed : preprocessor.AreProcessed processed)
    (areProcessedToo : preprocessor.AreProcessed processedToo)
    (sameBlocks : processed.map Prod.fst = processedToo.map Prod.fst) :
    processed = processedToo := by
  induction processed generalizing processedToo with
  | nil => exact (List.map_eq_nil_iff.mp sameBlocks.symm).symm
  | cons pair rest ih =>
      cases processedToo with
      | nil => cases sameBlocks
      | cons pairToo restToo =>
          obtain ⟨given, others⟩ := List.forall_mem_cons.mp areProcessed
          obtain ⟨givenToo, othersToo⟩ := List.forall_mem_cons.mp areProcessedToo
          obtain ⟨sameBlock, sameRest⟩ := List.cons.inj sameBlocks
          obtain ⟨found, output⟩ := pair
          obtain ⟨foundToo, outputToo⟩ := pairToo
          cases sameBlock
          cases given.symm.trans givenToo
          rw [ih others othersToo sameRest]

/-- Given blocks finish if every one of them succeeds. -/
theorem processFound_finishes_iff
    (completes : schedule.Completes)
    {found : List FoundBlock} :
    (∃ processed, preprocessor.processFound schedule found = .finished processed) ↔
      ∀ one ∈ found, ∃ output,
        (preprocessor.processBlock one.block).value? = some (.ok output) := by
  constructor
  · rintro ⟨processed, finished⟩ one member
    obtain ⟨rfl, areProcessed⟩ := areProcessed_of_processFound finished
    obtain ⟨pair, among, rfl⟩ := List.mem_map.mp member
    exact ⟨pair.2, areProcessed pair among⟩
  · intro succeed
    have jobsSucceed : ∀ job ∈ found.map fun found => preprocessor.processBlock found.block,
        ∃ output, job.value? = some (.ok output) := by
      intro job member
      obtain ⟨one, among, rfl⟩ := List.mem_map.mp member
      exact succeed one among
    obtain ⟨outputs, collected⟩ := exists_collect_of_succeed (completes _) jobsSucceed
    refine ⟨found.zip outputs, ?_⟩
    rw [processFound, collected]
    rfl

/-- Leaving blocks out leaves out what they come to. -/
theorem processFound_filter
    {found : List FoundBlock}
    {stays : FoundBlock → Bool}
    {processed left : List (FoundBlock × BlockOutput)}
    (finished : preprocessor.processFound schedule found = .finished processed)
    (finishedToo : preprocessor.processFound schedule (found.filter stays) = .finished left) :
    left = processed.filter fun pair => stays pair.1 := by
  obtain ⟨blocks, areProcessed⟩ := areProcessed_of_processFound finished
  obtain ⟨blocksLeft, areProcessedLeft⟩ := areProcessed_of_processFound finishedToo
  refine areProcessedLeft.unique
    (fun pair member => areProcessed pair (List.mem_of_mem_filter member)) ?_
  rw [blocksLeft, ← blocks, List.filter_map]
  rfl

/-! ## Outputs of some of the blocks -/

section Assemble

variable {markup : MarkupOutput} {scripts styles : List (FoundBlock × BlockOutput)}
variable {output : Output}

theorem assemble_finished_iff :
    preprocessor.assemble filename markup scripts styles = .finished output ↔
      ∃ code map final,
        splice markup.code filename (projectRootOf filename)
            ((scripts ++ styles).map fun pair => pair.2.replacement pair.1)
            preprocessor.options.sourceMap = .ok (code, map) ∧
          finalMap map markup.map filename = .ok final ∧
            output = {
              code
              dependencies := distinctPaths <|
                markup.dependencies ++
                  (scripts ++ styles).flatMap fun pair => pair.2.dependencies
              map := final
              invocations :=
                markup.invocations ++
                  byTurn (scripts.flatMap fun pair => pair.2.invocations) ++
                  byTurn (styles.flatMap fun pair => pair.2.invocations) } := by
  constructor
  · intro finished
    obtain ⟨⟨code, map⟩, spliced, finished⟩ := Outcome.bind_eq_finished_iff.mp finished
    obtain ⟨final, composed, finished⟩ := Outcome.bind_eq_finished_iff.mp finished
    exact ⟨code, map, final, Outcome.ofExcept_eq_finished_iff.mp spliced,
      Outcome.ofExcept_eq_finished_iff.mp composed,
      (Outcome.pure_eq_finished_iff.mp finished).symm⟩
  · rintro ⟨code, map, final, spliced, composed, rfl⟩
    simp only [assemble, spliced, composed, Outcome.ofExcept, Outcome.finished_bind]
    rfl

/-- Blocks that are spliced to the same text and map give outputs that differ at
most in their files and invocations. -/
theorem exists_assemble_of_splice_eq
    {scriptsToo stylesToo : List (FoundBlock × BlockOutput)}
    (same :
      splice markup.code filename (projectRootOf filename)
          ((scripts ++ styles).map fun pair => pair.2.replacement pair.1)
          preprocessor.options.sourceMap =
        splice markup.code filename (projectRootOf filename)
          ((scriptsToo ++ stylesToo).map fun pair => pair.2.replacement pair.1)
          preprocessor.options.sourceMap)
    (finished : preprocessor.assemble filename markup scripts styles = .finished output) :
    ∃ outputToo,
      preprocessor.assemble filename markup scriptsToo stylesToo = .finished outputToo ∧
        outputToo.code = output.code ∧ outputToo.map = output.map := by
  obtain ⟨code, map, final, spliced, composed, rfl⟩ := assemble_finished_iff.mp finished
  rw [same] at spliced
  exact ⟨_, assemble_finished_iff.mpr ⟨code, map, final, spliced, composed, rfl⟩, rfl, rfl⟩

/-- Leaving out blocks that are not written leaves the splice as it is. -/
theorem splice_filter_of_written
    (scriptBlocks : scripts.map Prod.fst = findBlocks markup.code .script filename)
    (styleBlocks : styles.map Prod.fst = findBlocks markup.code .style filename)
    {stays : FoundBlock → Bool}
    (written : ∀ found ∈ writtenBlocks markup.code filename, stays found = true) :
    splice markup.code filename (projectRootOf filename)
        (((scripts.filter fun pair => stays pair.1) ++
          styles.filter fun pair => stays pair.1).map fun pair => pair.2.replacement pair.1)
        preprocessor.options.sourceMap =
      splice markup.code filename (projectRootOf filename)
        ((scripts ++ styles).map fun pair => pair.2.replacement pair.1)
        preprocessor.options.sourceMap := by
  have blocks : (scripts ++ styles).map Prod.fst =
      findBlocks markup.code .script filename ++ findBlocks markup.code .style filename := by
    rw [List.map_append, scriptBlocks, styleBlocks]
  rw [← List.filter_append]
  refine splice_map_filter ?_ ?_ filename _ _
  · intro pair member
    have listed : pair.1 ∈ (scripts ++ styles).map Prod.fst := List.mem_map_of_mem member
    rw [blocks] at listed
    obtain ⟨kind, notMarkup, among⟩ := exists_kind_of_mem listed
    exact (stands_of_mem_findBlocks notMarkup among).exists_covers
  · intro pair kept
    apply written
    have sorted : ((scripts ++ styles).mergeSort fun first second =>
          first.1.block.span.start ≤ second.1.block.span.start).map Prod.fst =
        (findBlocks markup.code .script filename ++
          findBlocks markup.code .style filename).mergeSort fun first second =>
            first.block.span.start ≤ second.block.span.start := by
      rw [← blocks]
      exact List.map_mergeSort fun _ _ _ _ => rfl
    rw [writtenBlocks, ← sorted, keptFrom_map]
    exact List.mem_map_of_mem kept

end Assemble

/-- A run on some of the blocks has processed the scripts and styles that stay. -/
theorem preprocessOnly_finished_iff
    {content document : Text}
    {markup : MarkupOutput}
    (hooked : preprocessor.applyHook content filename = .ok document)
    (markupDone : preprocessor.processMarkup document filename = .finished markup)
    {stays : FoundBlock → Bool}
    {output : Output} :
    preprocessor.preprocessOnly stays schedule content filename = .finished output ↔
      ∃ scripts styles,
        preprocessor.processFound schedule
            ((findBlocks markup.code .script filename).filter stays) = .finished scripts ∧
          preprocessor.processFound schedule
              ((findBlocks markup.code .style filename).filter stays) = .finished styles ∧
            preprocessor.assemble filename markup scripts styles = .finished output := by
  rw [preprocessOnly, hooked, Outcome.ofExcept, Outcome.finished_bind, markupDone,
    Outcome.finished_bind]
  simp only [Outcome.bind_eq_finished_iff]
  constructor
  · rintro ⟨scripts, scriptsDone, styles, stylesDone, assembled⟩
    exact ⟨scripts, styles, scriptsDone, stylesDone, assembled⟩
  · rintro ⟨scripts, styles, scriptsDone, stylesDone, assembled⟩
    exact ⟨scripts, scriptsDone, styles, stylesDone, assembled⟩

theorem preprocess_finished_iff
    {content document : Text}
    {markup : MarkupOutput}
    (hooked : preprocessor.applyHook content filename = .ok document)
    (markupDone : preprocessor.processMarkup document filename = .finished markup)
    {output : Output} :
    preprocessor.preprocess schedule content filename = .finished output ↔
      ∃ scripts styles,
        preprocessor.processFound schedule (findBlocks markup.code .script filename) =
            .finished scripts ∧
          preprocessor.processFound schedule (findBlocks markup.code .style filename) =
              .finished styles ∧
            preprocessor.assemble filename markup scripts styles = .finished output := by
  have all : preprocessor.preprocessOnly (fun _ => true) schedule content filename =
      .finished output ↔ _ := preprocessOnly_finished_iff hooked markupDone
  simpa only [List.filter_true, preprocessOnly_all] using all

/-- Files of blocks that report none can be left out. -/
theorem flatMap_filter_of_none
    {processed : List (FoundBlock × BlockOutput)}
    {stays : FoundBlock → Bool}
    (none : ∀ pair ∈ processed, stays pair.1 = false → pair.2.dependencies = []) :
    ((processed.filter fun pair => stays pair.1).flatMap fun pair => pair.2.dependencies) =
      processed.flatMap fun pair => pair.2.dependencies := by
  induction processed with
  | nil => rfl
  | cons pair rest ih =>
      obtain ⟨first, others⟩ := List.forall_mem_cons.mp none
      rw [List.filter_cons, List.flatMap_cons]
      split
      · rw [List.flatMap_cons, ih others]
      · rename_i leaves
        rw [first (Bool.eq_false_iff.mpr leaves), List.nil_append, ih others]

/-! ## Runs with and without blocks that are not written -/

section Without

variable {content document : Text} {markup : MarkupOutput} {stays : FoundBlock → Bool}
variable {scripts styles scriptsLeft stylesLeft : List (FoundBlock × BlockOutput)}

/-- The scripts and styles of a document are processed, and so are those of them
that stay. -/
structure BothProcessed
    (preprocessor : Preprocessor)
    (schedule : Schedule)
    (filename : Path)
    (markup : MarkupOutput)
    (stays : FoundBlock → Bool)
    (scripts styles scriptsLeft stylesLeft : List (FoundBlock × BlockOutput)) : Prop where
  scripts : preprocessor.processFound schedule
    (findBlocks markup.code .script filename) = .finished scripts
  styles : preprocessor.processFound schedule
    (findBlocks markup.code .style filename) = .finished styles
  scriptsLeft : preprocessor.processFound schedule
    ((findBlocks markup.code .script filename).filter stays) = .finished scriptsLeft
  stylesLeft : preprocessor.processFound schedule
    ((findBlocks markup.code .style filename).filter stays) = .finished stylesLeft

/-- Without blocks that are not written the splice is the same. -/
theorem BothProcessed.splice_eq
    (both : preprocessor.BothProcessed schedule filename markup stays
      scripts styles scriptsLeft stylesLeft)
    (written : ∀ found ∈ writtenBlocks markup.code filename, stays found = true) :
    splice markup.code filename (projectRootOf filename)
        ((scriptsLeft ++ stylesLeft).map fun pair => pair.2.replacement pair.1)
        preprocessor.options.sourceMap =
      splice markup.code filename (projectRootOf filename)
        ((scripts ++ styles).map fun pair => pair.2.replacement pair.1)
        preprocessor.options.sourceMap := by
  rw [processFound_filter both.scripts both.scriptsLeft,
    processFound_filter both.styles both.stylesLeft]
  exact splice_filter_of_written (areProcessed_of_processFound both.scripts).1
    (areProcessed_of_processFound both.styles).1 written

/-- Without blocks that report no files the list of files is the same. -/
theorem BothProcessed.flatMap_eq
    (both : preprocessor.BothProcessed schedule filename markup stays
      scripts styles scriptsLeft stylesLeft)
    (reportNone : ∀ found ∈ findBlocks markup.code .script filename ++
        findBlocks markup.code .style filename,
      stays found = false → ∀ result,
        (preprocessor.processBlock found.block).value? = some (.ok result) →
          result.dependencies = []) :
    ((scriptsLeft ++ stylesLeft).flatMap fun pair => pair.2.dependencies) =
      (scripts ++ styles).flatMap fun pair => pair.2.dependencies := by
  obtain ⟨scriptBlocks, scriptsProcessed⟩ := areProcessed_of_processFound both.scripts
  obtain ⟨styleBlocks, stylesProcessed⟩ := areProcessed_of_processFound both.styles
  rw [processFound_filter both.scripts both.scriptsLeft,
    processFound_filter both.styles both.stylesLeft, ← List.filter_append]
  refine flatMap_filter_of_none fun pair member leaves => ?_
  have listed : pair.1 ∈ (scripts ++ styles).map Prod.fst := List.mem_map_of_mem member
  rw [List.map_append, scriptBlocks, styleBlocks] at listed
  rcases List.mem_append.mp member with script | style
  · exact reportNone pair.1 listed leaves pair.2 (scriptsProcessed pair script)
  · exact reportNone pair.1 listed leaves pair.2 (stylesProcessed pair style)

/-- A run that finishes has processed the blocks that are left out. -/
theorem exists_preprocessOnly_of_preprocess
    (completes : schedule.Completes)
    (hooked : preprocessor.applyHook content filename = .ok document)
    (markupDone : preprocessor.processMarkup document filename = .finished markup)
    (written : ∀ found ∈ writtenBlocks markup.code filename, stays found = true)
    {output : Output}
    (finished : preprocessor.preprocess schedule content filename = .finished output) :
    (∃ without,
      preprocessor.preprocessOnly stays schedule content filename = .finished without) ∧
      ∀ found ∈ findBlocks markup.code .script filename ++
          findBlocks markup.code .style filename,
        ∃ result, (preprocessor.processBlock found.block).value? = some (.ok result) := by
  obtain ⟨scripts, styles, scriptsDone, stylesDone, assembled⟩ :=
    (preprocess_finished_iff hooked markupDone).mp finished
  have scriptsSucceed := (processFound_finishes_iff completes).mp ⟨scripts, scriptsDone⟩
  have stylesSucceed := (processFound_finishes_iff completes).mp ⟨styles, stylesDone⟩
  obtain ⟨scriptsLeft, scriptsLeftDone⟩ := (processFound_finishes_iff completes).mpr
    fun found member => scriptsSucceed found (List.mem_of_mem_filter member)
  obtain ⟨stylesLeft, stylesLeftDone⟩ := (processFound_finishes_iff completes).mpr
    fun found member => stylesSucceed found (List.mem_of_mem_filter member)
  have both : preprocessor.BothProcessed schedule filename markup stays _ _ _ _ :=
    ⟨scriptsDone, stylesDone, scriptsLeftDone, stylesLeftDone⟩
  obtain ⟨without, assembledToo, -⟩ :=
    exists_assemble_of_splice_eq (both.splice_eq written).symm assembled
  refine ⟨⟨without, (preprocessOnly_finished_iff hooked markupDone).mpr
    ⟨scriptsLeft, stylesLeft, scriptsLeftDone, stylesLeftDone, assembledToo⟩⟩, ?_⟩
  intro found member
  rcases List.mem_append.mp member with script | style
  · exact scriptsSucceed found script
  · exact stylesSucceed found style

/-- If the blocks that are left out succeed, a run with them finishes as well. -/
theorem exists_preprocess_of_preprocessOnly
    (completes : schedule.Completes)
    (hooked : preprocessor.applyHook content filename = .ok document)
    (markupDone : preprocessor.processMarkup document filename = .finished markup)
    (written : ∀ found ∈ writtenBlocks markup.code filename, stays found = true)
    {without : Output}
    (finished :
      preprocessor.preprocessOnly stays schedule content filename = .finished without)
    (succeed : ∀ found ∈ findBlocks markup.code .script filename ++
        findBlocks markup.code .style filename,
      stays found = false →
        ∃ result, (preprocessor.processBlock found.block).value? = some (.ok result)) :
    ∃ output, preprocessor.preprocess schedule content filename = .finished output := by
  obtain ⟨scriptsLeft, stylesLeft, scriptsLeftDone, stylesLeftDone, assembled⟩ :=
    (preprocessOnly_finished_iff hooked markupDone).mp finished
  have succeedAll {blocks : List FoundBlock}
      (among : ∀ found ∈ blocks, found ∈ findBlocks markup.code .script filename ++
        findBlocks markup.code .style filename)
      {left : List (FoundBlock × BlockOutput)}
      (leftDone : preprocessor.processFound schedule (blocks.filter stays) =
        .finished left) :
      ∃ processed, preprocessor.processFound schedule blocks = .finished processed := by
    refine (processFound_finishes_iff completes).mpr fun found member => ?_
    by_cases remains : stays found = true
    · exact (processFound_finishes_iff completes).mp ⟨left, leftDone⟩ found
        (List.mem_filter.mpr ⟨member, remains⟩)
    · exact succeed found (among found member) (Bool.eq_false_iff.mpr remains)
  obtain ⟨scripts, scriptsDone⟩ :=
    succeedAll (fun _ script => List.mem_append_left _ script) scriptsLeftDone
  obtain ⟨styles, stylesDone⟩ :=
    succeedAll (fun _ style => List.mem_append_right _ style) stylesLeftDone
  have both : preprocessor.BothProcessed schedule filename markup stays _ _ _ _ :=
    ⟨scriptsDone, stylesDone, scriptsLeftDone, stylesLeftDone⟩
  obtain ⟨output, assembledToo, -⟩ :=
    exists_assemble_of_splice_eq (both.splice_eq written) assembled
  exact ⟨output, (preprocess_finished_iff hooked markupDone).mpr
    ⟨scripts, styles, scriptsDone, stylesDone, assembledToo⟩⟩

/-- Two runs that finish, with blocks that are not written and without them, give
the same text and map. -/
theorem same_of_preprocessOnly
    (hooked : preprocessor.applyHook content filename = .ok document)
    (markupDone : preprocessor.processMarkup document filename = .finished markup)
    (written : ∀ found ∈ writtenBlocks markup.code filename, stays found = true)
    {output without : Output}
    (finished : preprocessor.preprocess schedule content filename = .finished output)
    (finishedToo :
      preprocessor.preprocessOnly stays schedule content filename = .finished without) :
    output.code = without.code ∧ output.map = without.map ∧
      ((∀ found ∈ findBlocks markup.code .script filename ++
          findBlocks markup.code .style filename,
        stays found = false → ∀ result,
          (preprocessor.processBlock found.block).value? = some (.ok result) →
            result.dependencies = []) →
        output.dependencies = without.dependencies) := by
  obtain ⟨scripts, styles, scriptsDone, stylesDone, assembled⟩ :=
    (preprocess_finished_iff hooked markupDone).mp finished
  obtain ⟨scriptsLeft, stylesLeft, scriptsLeftDone, stylesLeftDone, assembledToo⟩ :=
    (preprocessOnly_finished_iff hooked markupDone).mp finishedToo
  have both : preprocessor.BothProcessed schedule filename markup stays _ _ _ _ :=
    ⟨scriptsDone, stylesDone, scriptsLeftDone, stylesLeftDone⟩
  obtain ⟨code, map, final, spliced, composed, rfl⟩ := assemble_finished_iff.mp assembled
  obtain ⟨codeToo, mapToo, finalToo, splicedToo, composedToo, rfl⟩ :=
    assemble_finished_iff.mp assembledToo
  rw [both.splice_eq written] at splicedToo
  cases splicedToo.symm.trans spliced
  cases composedToo.symm.trans composed
  refine ⟨rfl, rfl, fun reportNone => ?_⟩
  simp only [both.flatMap_eq reportNone]

end Without

/-- Blocks in the content of blocks that are written.  A run with them succeeds if
one without them does and each of them succeeds as well.  Then the text and the
map of its output are those of the output without them, and so are the files if
these blocks report none. -/
theorem preprocess_of_nested
    (completes : schedule.Completes)
    {content document : Text}
    {markup : MarkupOutput}
    (hooked : preprocessor.applyHook content filename = .ok document)
    (markupDone : preprocessor.processMarkup document filename = .finished markup)
    {stays : FoundBlock → Bool}
    (nested : ∀ found ∈ findBlocks markup.code .script filename ++
        findBlocks markup.code .style filename,
      stays found = false → found.IsNested markup.code filename) :
    ((∃ output, preprocessor.preprocess schedule content filename = .finished output) ↔
      (∃ without,
        preprocessor.preprocessOnly stays schedule content filename = .finished without) ∧
      ∀ found ∈ findBlocks markup.code .script filename ++
          findBlocks markup.code .style filename,
        stays found = false →
          ∃ result, (preprocessor.processBlock found.block).value? = some (.ok result)) ∧
    ∀ output without,
      preprocessor.preprocess schedule content filename = .finished output →
      preprocessor.preprocessOnly stays schedule content filename = .finished without →
        output.code = without.code ∧ output.map = without.map ∧
          ((∀ found ∈ findBlocks markup.code .script filename ++
              findBlocks markup.code .style filename,
            stays found = false → ∀ result,
              (preprocessor.processBlock found.block).value? = some (.ok result) →
                result.dependencies = []) →
            output.dependencies = without.dependencies) := by
  have written : ∀ found ∈ writtenBlocks markup.code filename, stays found = true := by
    intro found isWritten
    by_contra leaves
    have listed := List.mem_mergeSort.mp (mem_of_mem_keptFrom isWritten)
    exact (nested found listed (Bool.eq_false_iff.mpr leaves)).not_mem_writtenBlocks isWritten
  refine ⟨⟨?_, ?_⟩, fun _ _ => same_of_preprocessOnly hooked markupDone written⟩
  · rintro ⟨output, finished⟩
    obtain ⟨without, succeed⟩ :=
      exists_preprocessOnly_of_preprocess completes hooked markupDone written finished
    exact ⟨without, fun found member _ => succeed found member⟩
  · rintro ⟨⟨without, finished⟩, succeed⟩
    exact exists_preprocess_of_preprocessOnly completes hooked markupDone written finished
      succeed

/-! ## Documents with an element in a script -/

/-- A script with a style in a string. -/
def nestedSample : Text :=
  "<script>\"<style lang='scss'></style>\"</script>"

/-- The script of the sample. -/
def nestingScript : FoundBlock :=
  ⟨⟨.script, "\"<style lang='scss'></style>\"", [], sampleFile, ⟨8, 37⟩, ⟨0, 8⟩⟩, [], []⟩

/-- The style of the sample. -/
def nestedStyle : FoundBlock :=
  ⟨⟨.style, [], [("lang", .text "scss")], sampleFile, ⟨28, 28⟩, ⟨0, 28⟩⟩, [], []⟩

theorem findBlocks_nestedSample :
    findBlocks nestedSample .script sampleFile = [nestingScript] ∧
      findBlocks nestedSample .style sampleFile = [nestedStyle] := by
  constructor <;> with_unfolding_all rfl

theorem isNested_nestedStyle : nestedStyle.IsNested nestedSample sampleFile := by
  have written : writtenBlocks nestedSample sampleFile = [nestingScript] := by
    rw [writtenBlocks, findBlocks_nestedSample.1, findBlocks_nestedSample.2,
      List.mergeSort_of_pairwise (by decide)]
    rfl
  have elements : elementsOf BlockKind.style.tagName nestedSample =
      [(9, ⟨some " lang='scss'", some []⟩)] := by
    with_unfolding_all rfl
  have isElement : nestedStyle = .ofElement nestedSample sampleFile .style 9
      ⟨some " lang='scss'", some []⟩ := by
    with_unfolding_all rfl
  refine ⟨nestingScript, by rw [written]; exact List.mem_singleton_self _, ?_⟩
  rw [isElement]
  refine .element (by decide) ?_ (by decide) (by decide)
  rw [elements]
  exact List.mem_singleton_self _

theorem processMarkup_nestedSample (preprocessor : Preprocessor) :
    preprocessor.processMarkup nestedSample sampleFile =
      .finished ⟨nestedSample, none, [], []⟩ := by
  have noMarkup : findMarkupBlock? nestedSample sampleFile = none := by
    with_unfolding_all rfl
  simp only [processMarkup, noMarkup]

/-- What becomes of the script of the sample. -/
def nestingScripts : List (FoundBlock × BlockOutput) :=
  [(nestingScript,
    ⟨nestingScript.block.content, none, [], some ⟨0, 8⟩,
      [⟨⟨"javascript", .identity, []⟩, ⟨"javascript", sampleFile, [], [], false, "/app"⟩,
        nestingScript.block.content, 0⟩]⟩)]

/-- Without the style the sample stays as it is. -/
theorem exists_preprocessOnly_nestedSample
    {preprocessor : Preprocessor}
    (hooked : preprocessor.applyHook nestedSample sampleFile = .ok nestedSample)
    (noMap : preprocessor.options.sourceMap = false)
    (scriptsDone : preprocessor.processFound .cooperative [nestingScript] =
      .finished nestingScripts) :
    ∃ without,
      preprocessor.preprocessOnly (fun found => found ≠ nestedStyle) .cooperative
          nestedSample sampleFile = .finished without ∧
        without.code = nestedSample ∧ without.dependencies = [] := by
  have spliced : splice nestedSample sampleFile (projectRootOf sampleFile)
      ((nestingScripts ++ []).map fun pair : FoundBlock × BlockOutput =>
        pair.2.replacement pair.1)
      preprocessor.options.sourceMap = .ok (nestedSample, none) := by
    have ordered : byStart ((nestingScripts ++ []).map
        fun pair : FoundBlock × BlockOutput => pair.2.replacement pair.1) =
          (nestingScripts ++ []).map fun pair : FoundBlock × BlockOutput =>
            pair.2.replacement pair.1 :=
      List.mergeSort_of_pairwise (by decide)
    rw [noMap]
    unfold splice splicePlan
    rw [ordered]
    rfl
  have assembled :
      preprocessor.assemble sampleFile ⟨nestedSample, none, [], []⟩ nestingScripts [] =
        .finished _ :=
    assemble_finished_iff.mpr ⟨nestedSample, none, none, spliced, rfl, rfl⟩
  obtain ⟨scripts, styles⟩ := findBlocks_nestedSample
  have scriptsStay : [nestingScript].filter (fun found => found ≠ nestedStyle) =
      [nestingScript] := by
    decide
  have stylesGo : [nestedStyle].filter (fun found => found ≠ nestedStyle) = [] := by
    decide
  refine ⟨_, (preprocessOnly_finished_iff hooked (processMarkup_nestedSample _)).mpr
    ⟨nestingScripts, [], ?_, ?_, assembled⟩, rfl, rfl⟩
  · rw [scripts, scriptsStay]
    exact scriptsDone
  · rw [styles, stylesGo]
    with_unfolding_all rfl

/-- Default options, and a transformer for the language of the style. -/
def withScss : Preprocessor :=
  .ofRegistry .empty
    ((Registry.ofOptions (fun _ _ _ => .error []) .empty).withDefault "scss" .identity)
    FileStore.empty.access

theorem preprocess_of_nested_nestedSample :
    nestedStyle.IsNested nestedSample sampleFile ∧
      ∃ output, withScss.preprocess .cooperative nestedSample sampleFile = .finished output ∧
        output.code = nestedSample ∧ output.dependencies = [] := by
  have isStyle {found : FoundBlock} (goes : decide (found ≠ nestedStyle) = false) :
      found = nestedStyle :=
    Decidable.not_not.mp (of_decide_eq_false goes)
  have nested : ∀ found ∈ findBlocks nestedSample .script sampleFile ++
        findBlocks nestedSample .style sampleFile,
      decide (found ≠ nestedStyle) = false → found.IsNested nestedSample sampleFile := by
    intro found _ goes
    rw [isStyle goes]
    exact isNested_nestedStyle
  obtain ⟨finishes, same⟩ := preprocess_of_nested Schedule.completes_cooperative rfl
    (processMarkup_nestedSample withScss) nested
  have isNothing : (withScss.processBlock nestedStyle.block).value? =
      some (.ok ⟨[], none, [], none, []⟩) := by
    rfl
  have scriptsDone : withScss.processFound .cooperative [nestingScript] =
      .finished nestingScripts := by
    with_unfolding_all rfl
  obtain ⟨without, finishedWithout, isCode, noFiles⟩ :=
    exists_preprocessOnly_nestedSample rfl rfl scriptsDone
  obtain ⟨output, finished⟩ := finishes.mpr ⟨⟨without, finishedWithout⟩, by
    intro found _ goes
    rw [isStyle goes]
    exact ⟨_, isNothing⟩⟩
  obtain ⟨sameCode, -, sameFiles⟩ := same output without finished finishedWithout
  refine ⟨isNested_nestedStyle, output, finished, sameCode.trans isCode,
    (sameFiles fun found _ goes result done => ?_).trans noFiles⟩
  rw [isStyle goes] at done
  cases isNothing.symm.trans done
  rfl

/-- Default options and transformers. -/
def plain : Preprocessor :=
  .ofRegistry .empty (.ofOptions (fun _ _ _ => .error []) .empty) FileStore.empty.access

/-- An element in a script can make a run fail that succeeds without it. -/
theorem preprocess_fails_at_nestedStyle :
    nestedStyle.IsNested nestedSample sampleFile ∧
      (∃ without,
        plain.preprocessOnly (fun found => found ≠ nestedStyle) .cooperative
            nestedSample sampleFile = .finished without ∧
          without.code = nestedSample ∧ without.dependencies = []) ∧
      plain.preprocess .cooperative nestedSample sampleFile =
        .failed (.noTransformer "scss" sampleFile) := by
  obtain ⟨scripts, styles⟩ := findBlocks_nestedSample
  have scriptsDone : plain.processFound .cooperative [nestingScript] =
      .finished nestingScripts := by
    with_unfolding_all rfl
  have scriptsKind : plain.processKind .cooperative nestedSample sampleFile .script =
      .finished nestingScripts := by
    unfold processKind
    rw [scripts]
    exact scriptsDone
  have stylesKind : plain.processKind .cooperative nestedSample sampleFile .style =
      .failed (.noTransformer "scss" sampleFile) := by
    unfold processKind
    rw [styles]
    with_unfolding_all rfl
  have hooked : plain.applyHook nestedSample sampleFile = .ok nestedSample := rfl
  refine ⟨isNested_nestedStyle, exists_preprocessOnly_nestedSample hooked rfl scriptsDone, ?_⟩
  simp only [preprocess, hooked, Outcome.ofExcept, Outcome.finished_bind,
    processMarkup_nestedSample, scriptsKind, stylesKind]
  rfl

end Preprocessor
end ComponentPipeline
