import Mathlib.Data.List.Basic
import RouteCoverage.Log
import RouteCoverage.Proofs.Files.Writing
import RouteCoverage.Proofs.Log.Line
import RouteCoverage.Proofs.Report.Reading
import RouteCoverage.Proofs.Text.ByteOrder

/-!
# The event log is read back

Every event that is logged adds one line to the file (`Log.find_of_write`), and no line can hold
a line feed.  So a file that held whole lines holds them still after any sequence of events, and
behind them one line for each event, from which the event is read back (`Log.readBack_emitAll`).
-/

namespace RouteCoverage

/-! ### Lines of bytes -/

/-- The lines of a file, each ended by a line feed. -/
def rows (content : ByteArray) : List (List UInt8) := (content.data.toList.splitOn 10).dropLast

/-- A file that holds whole lines only: it is empty or ends with a line feed. -/
def EndsLine (content : ByteArray) : Prop :=
  content = .empty ∨ content.data.toList.getLast? = some 10

theorem bytes_append (s t : String) : bytes (s ++ t) = bytes s ++ bytes t := by
  rw [bytes_eq_flatMap, bytes_eq_flatMap, bytes_eq_flatMap, String.toList_append,
    List.flatMap_append]

/-- Only a line feed has the byte of a line feed. -/
theorem eq_of_newline_mem_utf8EncodeChar {c : Char} (h : 10 ∈ String.utf8EncodeChar c) :
    c = '\n' := by
  obtain ⟨hc, hbytes⟩ | ⟨i, j, hi, hj, _, _, hbytes⟩ | ⟨i, j, k, hi, hj, hk, _, _, hbytes⟩ |
    ⟨i, j, k, l, hi, hj, hk, hl, _, _, hbytes⟩ := utf8EncodeChar_cases c
  · rw [hbytes, List.mem_singleton, ← UInt8.toNat_inj, UInt8.toNat_ofNat'] at h
    have hnat : c.toNat = 10 := by
      have hten : (10 : UInt8).toNat = 10 := rfl
      omega
    exact Char.toNat_inj.mp hnat
  all_goals
    -- every byte of a longer character is at least 128
    exfalso
    simp only [hbytes, List.mem_cons, List.not_mem_nil, or_false, ← UInt8.toNat_inj,
      UInt8.toNat_ofNat'] at h
    have hten : (10 : UInt8).toNat = 10 := rfl
    omega

theorem newline_not_mem_bytes {s : String} (h : '\n' ∉ s.toList) : 10 ∉ bytes s := by
  rw [bytes_eq_flatMap, List.mem_flatMap]
  rintro ⟨c, hc, hbyte⟩
  exact h (eq_of_newline_mem_utf8EncodeChar hbyte ▸ hc)

theorem toList_append_line (content : ByteArray) (line : String) :
    (content ++ (line ++ "\n").toUTF8).data.toList =
      content.data.toList ++ (bytes line ++ [10]) := by
  have hline : (line ++ "\n").toUTF8.data.toList = bytes line ++ [10] := bytes_append line "\n"
  rw [ByteArray.toList_data_append, hline]

theorem endsLine_append_line (content : ByteArray) (line : String) :
    EndsLine (content ++ (line ++ "\n").toUTF8) := by
  right
  rw [toList_append_line, ← List.append_assoc, List.getLast?_concat]

theorem rows_append_line {content : ByteArray} (h : EndsLine content) {line : String}
    (hline : '\n' ∉ line.toList) :
    rows (content ++ (line ++ "\n").toUTF8) = rows content ++ [bytes line] := by
  have hsplit : (bytes line ++ [10]).splitOn 10 = [bytes line, []] := by
    rw [List.splitOn_append_cons_self_of_not_mem (newline_not_mem_bytes hline), List.splitOn_nil]
  rw [rows, rows, toList_append_line]
  rcases h with rfl | hlast
  · exact congrArg List.dropLast hsplit
  · obtain ⟨before, hbefore⟩ := List.getLast?_eq_some_iff.mp hlast
    rw [hbefore, List.append_assoc, List.singleton_append, List.splitOn_append_cons_self, hsplit,
      List.splitOn_append_cons_self, List.splitOn_nil, List.dropLast_concat]
    exact List.dropLast_append_cons

theorem fromUTF8?_bytes (s : String) : String.fromUTF8? (bytes s).toByteArray = some s := by
  have hbytes : (bytes s).toByteArray = s.toByteArray := by
    rw [bytes_eq_flatMap]
    exact String.utf8Encode_toList
  rw [hbytes, String.fromUTF8?, dif_pos s.isValidUTF8]
  rfl

namespace LoggedEvent

/-- The event that a line of bytes holds. -/
def ofRow? (row : List UInt8) : Option LoggedEvent :=
  (String.fromUTF8? row.toByteArray).bind ofLine?

theorem ofRow?_bytes {e : LoggedEvent} (h : e.InRange) : ofRow? (bytes e.render) = some e := by
  rw [ofRow?, fromUTF8?_bytes, Option.bind_some, ofLine?_render h]

end LoggedEvent

namespace Log

/-! ### Writing to a log -/

/-- The tree after a line was written to a log, or the reason why it could not be written. -/
def write (path : Path) (tree : FileTree) (e : LoggedEvent) : Except FileError FileTree := do
  (← prepare tree path).append path (lines e.timestamp [e.event])

/-- The tree after events were handed to a log, one after another. -/
def emitAll (path : Path) (entries : List LoggedEvent) (tree : FileTree) : FileTree :=
  entries.foldl (fun tree e => append e.timestamp path [e.event] tree) tree

/-- What a log holds: the content of the file that the path leads to once the directories on the
way are made. -/
def held (tree : FileTree) (path : Path) : ByteArray :=
  match prepare tree path with
  | .ok prepared => prepared.content path
  | .error _ => tree.content path

variable {path : Path} {tree tree' : FileTree} {e : LoggedEvent}

theorem lines_singleton (e : LoggedEvent) : lines e.timestamp [e.event] = e.render ++ "\n" := by
  simp [lines, String.join]

theorem exists_prepared_of_write (h : write path tree e = .ok tree') :
    ∃ prepared, prepare tree path = .ok prepared ∧
      prepared.append path (lines e.timestamp [e.event]) = .ok tree' := by
  unfold write at h
  cases hprepare : prepare tree path with
  | error fault =>
      rw [hprepare] at h
      cases h
  | ok prepared =>
      rw [hprepare] at h
      exact ⟨prepared, rfl, h⟩

/-- An event that can be written is logged by writing it. -/
theorem append_of_write (h : write path tree e = .ok tree') :
    append e.timestamp path [e.event] tree = tree' := by
  obtain ⟨prepared, hprepare, happend⟩ := exists_prepared_of_write h
  rw [append, hprepare]
  dsimp only
  rw [happend]
  rfl

theorem prepare_cases (h : prepare tree path = .ok tree') :
    tree' = tree ∨ ∃ parent, tree.makeDirectories parent = .ok tree' := by
  unfold prepare at h
  split at h
  · split at h
    · cases h
      exact .inl rfl
    · exact .inr ⟨_, h⟩
  · cases h
    exact .inl rfl

theorem find_file_of_prepare (h : prepare tree path = .ok tree') {q : Path} {content : ByteArray}
    (hfind : tree.find q = .ok (.file content)) : tree'.find q = .ok (.file content) := by
  rcases prepare_cases h with rfl | ⟨parent, hmake⟩
  · exact hfind
  · exact FileTree.find_file_of_makeDirectories hmake hfind

/-- Preparing a log makes no file, unless the path leads back through a new directory. -/
theorem find_file_of_find_prepared (h : prepare tree path = .ok tree') {q : Path}
    (hup : ".." ∉ q.segments) {content : ByteArray} (hfind : tree'.find q = .ok (.file content)) :
    tree.find q = .ok (.file content) := by
  rcases prepare_cases h with rfl | ⟨parent, hmake⟩
  · exact hfind
  · exact FileTree.find_file_of_find_made hmake hup hfind

theorem content_of_find {content : ByteArray} (h : tree.find path = .ok (.file content)) :
    tree.content path = content := by
  rw [FileTree.content, h]

theorem held_of_find {content : ByteArray} (h : tree.find path = .ok (.file content)) :
    held tree path = content := by
  unfold held
  split
  · next hprepare => exact content_of_find (find_file_of_prepare hprepare h)
  · exact content_of_find h

theorem held_of_missing (hup : ".." ∉ path.segments) {fault : FileError}
    (h : tree.find path = .error fault) : held tree path = .empty := by
  have hcontent : tree.content path = .empty := by
    rw [FileTree.content, h]
  unfold held
  split
  · next prepared hprepare =>
      unfold FileTree.content
      split
      · next content hfind =>
          rw [find_file_of_find_prepared hprepare hup hfind] at h
          cases h
      · rfl
  · exact hcontent

/-- What is appended to a prepared log stands behind what the log held. -/
theorem find_of_append {prepared : FileTree} (hprepare : prepare tree path = .ok prepared)
    {text : String} (happend : prepared.append path text = .ok tree') :
    tree'.find path = .ok (.file (held tree path ++ text.toUTF8)) := by
  rw [held, hprepare]
  exact FileTree.find_of_modifyFile happend

theorem find_of_write (h : write path tree e = .ok tree') :
    tree'.find path = .ok (.file (held tree path ++ (e.render ++ "\n").toUTF8)) := by
  obtain ⟨prepared, hprepare, happend⟩ := exists_prepared_of_write h
  rw [lines_singleton] at happend
  exact find_of_append hprepare happend

theorem held_of_write (h : write path tree e = .ok tree') :
    held tree' path = held tree path ++ (e.render ++ "\n").toUTF8 :=
  held_of_find (find_of_write h)

/-! ### Sequences of events -/

variable {entries : List LoggedEvent}

theorem exists_write_of_cons (h : (e :: entries).foldlM (write path) tree = .ok tree') :
    ∃ next, write path tree e = .ok next ∧ entries.foldlM (write path) next = .ok tree' := by
  rw [List.foldlM_cons] at h
  cases hwrite : write path tree e with
  | error fault =>
      rw [hwrite] at h
      cases h
  | ok next =>
      rw [hwrite] at h
      exact ⟨next, rfl, h⟩

theorem emitAll_of_writes (h : entries.foldlM (write path) tree = .ok tree') :
    emitAll path entries tree = tree' := by
  induction entries generalizing tree with
  | nil =>
      cases h
      rfl
  | cons e entries ih =>
      obtain ⟨next, hwrite, hrest⟩ := exists_write_of_cons h
      rw [emitAll, List.foldl_cons, append_of_write hwrite]
      exact ih hrest

theorem held_of_writes (h : entries.foldlM (write path) tree = .ok tree') :
    held tree' path = held tree path ++ (unlines (entries.map LoggedEvent.render)).toUTF8 := by
  induction entries generalizing tree with
  | nil =>
      cases h
      exact ByteArray.append_empty.symm
  | cons e entries ih =>
      obtain ⟨next, hwrite, hrest⟩ := exists_write_of_cons h
      have hlines : unlines ((e :: entries).map LoggedEvent.render) =
          (e.render ++ "\n") ++ unlines (entries.map LoggedEvent.render) := String.join_cons
      rw [ih hrest, held_of_write hwrite, hlines, ByteArray.append_assoc]
      exact congrArg _ String.toByteArray_append.symm

theorem rows_of_writes (h : entries.foldlM (write path) tree = .ok tree')
    (hends : EndsLine (held tree path)) :
    rows (held tree' path) = rows (held tree path) ++ entries.map fun e => bytes e.render := by
  induction entries generalizing tree with
  | nil =>
      cases h
      exact (List.append_nil _).symm
  | cons e entries ih =>
      obtain ⟨next, hwrite, hrest⟩ := exists_write_of_cons h
      have hheld := held_of_write hwrite
      have hnext : EndsLine (held next path) := hheld ▸ endsLine_append_line _ _
      have hrows : rows (held next path) = rows (held tree path) ++ [bytes e.render] := by
        rw [hheld]
        exact rows_append_line hends e.newline_not_mem_render
      rw [ih hrest hnext, hrows, List.map_cons, List.append_assoc, List.singleton_append]

theorem find_of_writes (h : entries.foldlM (write path) tree = .ok tree') (hne : entries ≠ []) :
    tree'.find path = .ok (.file (held tree' path)) := by
  obtain ⟨before, e, rfl⟩ := List.eq_nil_or_concat' entries |>.resolve_left hne
  rw [List.foldlM_append] at h
  cases hbefore : before.foldlM (write path) tree with
  | error fault =>
      rw [hbefore] at h
      cases h
  | ok last =>
      rw [hbefore] at h
      obtain ⟨next, hwrite, hrest⟩ := exists_write_of_cons h
      cases hrest
      rw [held_of_write hwrite]
      exact find_of_write hwrite

theorem mapM_ofRow?_bytes (hrange : ∀ e ∈ entries, e.InRange) :
    (entries.map fun e => bytes e.render).mapM LoggedEvent.ofRow? = some entries := by
  induction entries with
  | nil => rfl
  | cons e entries ih =>
      obtain ⟨he, hentries⟩ := List.forall_mem_cons.mp hrange
      rw [List.map_cons, List.mapM_cons, LoggedEvent.ofRow?_bytes he, ih hentries]
      rfl

/-- Events of one time that are logged at once leave the log as they do one after another. -/
theorem held_append_eq_emitAll {timestamp : Nat} {events : List Event} {prepared : FileTree}
    (hprepare : prepare tree path = .ok prepared)
    (happend : prepared.append path (lines timestamp events) = .ok tree')
    (hwrites : ∃ last,
      (events.map (LoggedEvent.mk timestamp)).foldlM (write path) tree = .ok last) :
    held (append timestamp path events tree) path =
      held (emitAll path (events.map (LoggedEvent.mk timestamp)) tree) path := by
  obtain ⟨last, hlast⟩ := hwrites
  cases events with
  | nil => rfl
  | cons e events =>
      have hlines : lines timestamp (e :: events) =
          unlines (((e :: events).map (LoggedEvent.mk timestamp)).map LoggedEvent.render) := by
        rw [lines, unlines, List.map_map, List.map_map]
        rfl
      have hlogged : append timestamp path (e :: events) tree = tree' := by
        rw [append, hprepare]
        dsimp only
        rw [happend]
        rfl
      rw [emitAll_of_writes hlast, held_of_writes hlast, hlogged,
        held_of_find (find_of_append hprepare happend), hlines]

/-- A line ends with a brace, so that nothing is taken off when it is read. -/
theorem exists_reverse_render (e : LoggedEvent) : ∃ s, e.render.toList.reverse = '}' :: s := by
  rw [LoggedEvent.render, Json.render, String.toList_append, List.reverse_append]
  exact ⟨_, rfl⟩

theorem read?_unlines (hrange : ∀ e ∈ entries, e.InRange) :
    read? (unlines (entries.map LoggedEvent.render)) = some (entries.map (·.event)) := by
  have hlines : ∀ line ∈ entries.map LoggedEvent.render, '\n' ∉ line.toList := by
    intro line hline
    obtain ⟨e, -, rfl⟩ := List.mem_map.mp hline
    exact e.newline_not_mem_render
  unfold read?
  extract_lets pieces whole
  have hpieces : pieces = entries.map (fun e => e.render.toList) ++ [[]] := by
    unfold pieces
    rw [Listing.splitAt_unlines hlines, List.map_append, List.map_map, List.map_map]
    refine congrArg (· ++ [[]]) (List.map_congr_left fun e _ => ?_)
    obtain ⟨s, hs⟩ := exists_reverse_render e
    simp only [Function.comp_apply, hs]
    rfl
  have hwhole : whole = entries.map fun e => e.render.toList := by
    unfold whole
    rw [hpieces, List.reverse_append]
    exact List.reverse_reverse _
  rw [hwhole]
  clear hlines hpieces hwhole pieces whole
  induction entries with
  | nil => rfl
  | cons e entries ih =>
      obtain ⟨he, hentries⟩ := List.forall_mem_cons.mp hrange
      rw [List.map_cons, List.mapM_cons, ih hentries, String.ofList_toList,
        LoggedEvent.ofLine?_render he]
      rfl

/-- Events that are handed to a log one after another, each with its own time, are read back from
it: behind what the log held stands one line for each of them, in order, and from each of these
lines its event is read.  The log held whole lines, or nothing, or was missing; all writes succeed.
No line holds a line feed, and no two events are written alike.

What the log held is the content of its file.  A missing log held nothing, but through `..` a path
may lead to a file only when the directories on the way are made. -/
theorem readBack_emitAll {path : Path} {entries : List LoggedEvent} {tree : FileTree}
    (hrange : ∀ e ∈ entries, e.InRange) (hwrites : (entries.foldlM (write path) tree).isOk)
    (hends : EndsLine (held tree path)) :
    held (emitAll path entries tree) path =
        held tree path ++ (unlines (entries.map LoggedEvent.render)).toUTF8 ∧
      rows (held (emitAll path entries tree) path) =
        rows (held tree path) ++ entries.map (fun e => bytes e.render) ∧
      ((rows (held (emitAll path entries tree) path)).drop (rows (held tree path)).length).mapM
        LoggedEvent.ofRow? = some entries ∧
      (∀ e : LoggedEvent, '\n' ∉ e.render.toList) ∧
      (∀ a b : Event, a.toJson.render = b.toJson.render → a = b) ∧
      (∀ content, tree.find path = .ok (.file content) → held tree path = content) ∧
      (".." ∉ path.segments → ∀ fault, tree.find path = .error fault → held tree path = .empty) ∧
      (entries ≠ [] → (emitAll path entries tree).find path =
        .ok (.file (held (emitAll path entries tree) path))) := by
  cases hrun : entries.foldlM (write path) tree with
  | error fault =>
      rw [hrun] at hwrites
      cases hwrites
  | ok tree' =>
      have hrows := rows_of_writes hrun hends
      rw [emitAll_of_writes hrun]
      refine ⟨held_of_writes hrun, hrows, ?_, LoggedEvent.newline_not_mem_render,
        fun _ _ => Event.render_toJson_injective, fun _ => held_of_find,
        fun hup _ => held_of_missing hup, find_of_writes hrun⟩
      rw [hrows, List.drop_left]
      exact mapM_ofRow?_bytes hrange

/-- A working directory with a log that was begun by something else. -/
def begunLog : FileTree :=
  ⟨.directory [("w", .directory [("log.jsonl", .file ⟨#[0xFF, 10]⟩)])], ["w"]⟩

/-- Events whose texts hold quotes, backslashes, line feeds and other control characters. -/
def awkwardEvents : List LoggedEvent :=
  [⟨1700000000, .routeCovered "a\"b" "C:\\routes.java" 0 0xFFFFFFFFFFFFFFFF "1\n\t2\r\n\x00é\n"⟩,
    ⟨1700000001, .filesDiscovered 1 0⟩, ⟨1700000001, .parseFailed "" "\x7b\x7d\\n"⟩]

theorem readBack_awkwardEvents :
    (∀ e ∈ awkwardEvents, e.InRange) ∧
      rows (held (emitAll ⟨"log.jsonl"⟩ awkwardEvents begunLog) ⟨"log.jsonl"⟩) =
        [0xFF] :: awkwardEvents.map (fun e => bytes e.render) := by
  have hrange : ∀ e ∈ awkwardEvents, e.InRange := by decide
  have hwrites : (awkwardEvents.foldlM (write ⟨"log.jsonl"⟩) begunLog).isOk := by decide +kernel
  have hheld : held begunLog ⟨"log.jsonl"⟩ = ⟨#[0xFF, 10]⟩ := by decide +kernel
  have hends : EndsLine (held begunLog ⟨"log.jsonl"⟩) := by
    rw [hheld]
    exact .inr rfl
  obtain ⟨-, hrows, -⟩ := readBack_emitAll hrange hwrites hends
  refine ⟨hrange, ?_⟩
  rw [hrows, hheld]
  rfl

end Log

end RouteCoverage
