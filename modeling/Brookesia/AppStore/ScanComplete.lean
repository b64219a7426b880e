import Brookesia.AppStore.ScanState

/-! # The scan is complete

Every operation of the scan keeps the invariant, in the runs in which an answer that is accepted belongs to the scan that goes on,
and no two different packages have the same key (`Own`). In these runs the scan is complete. -/

namespace Brookesia.AppStore

open Transition List Option

namespace LocalScan

variable {s : LocalScan}

/-! ### The directories -/

theorem take_drop_cons {α : Type*} {l rest : List α} {x : α} {n : ℕ} (h : l.drop n = x :: rest) :
    n + 1 ≤ l.length ∧ l.take (n + 1) = l.take n ++ [x] ∧ l.drop (n + 1) = rest := by
  have hlt : n < l.length := by
    by_contra hle
    rw [drop_eq_nil_of_le (Nat.le_of_not_lt hle)] at h
    cases h
  rw [drop_eq_getElem_cons hlt] at h
  obtain ⟨hx, hrest⟩ := cons.inj h
  exact ⟨hlt, by rw [take_succ_eq_append_getElem hlt, hx], hrest⟩

/-- The scan has its answer, and goes on with the directory at the cursor. -/
structure Between (s : LocalScan) : Prop where
  numbered : s.Numbered
  found : s.Found
  parsed : s.Parsed
  goes : s.inProgress = true
  phase : s.phase = .statDirectory
  timer : s.timerId = 0
  own : s.own = []
  answered : s.answered = s.dirs.take s.dirCursor

variable {o : Outside} {request : Request} {t : LocalScan}

theorem Between.asks (h : s.Between)
    (ht : t = { s with inFlight := s.inFlight ++ [request], answered := t.answered, dirCursor := t.dirCursor })
    (hscan : request.scan + 1 = s.scans) (hgen : request.generation = s.asyncGeneration)
    (hcurs : t.dirCursor ≤ s.dirs.length) (hans : t.answered ++ [request.dir] = s.dirs.take t.dirCursor) : t.Kept := by
  have hfnd := h.found
  have hpar := h.parsed
  have hown : t.own = [request] := by
    have : t.own = s.own ++ [request].filter fun request => request.scan + 1 = s.scans := by
      rw [ht]
      exact filter_append ..
    rw [this, h.own, nil_append]
    refine filter_eq_self.mpr fun other hoth => ?_
    rw [mem_singleton.mp hoth]
    exact decide_eq_true hscan
  rw [ht] at hown ⊢
  refine ⟨h.numbered.same rfl rfl rfl rfl rfl (fun other hoth => ?_) (fun _ => rfl),
    fun _ => ⟨hcurs, hfnd.initial, hfnd.below, hfnd.found⟩,
    fun _ => ⟨hpar.cursor, hpar.reads, hpar.apart, hpar.keys, hpar.distinct, hpar.seen, hpar.only⟩,
    .asks request h.goes h.phase h.timer hown hgen hans⟩
  rcases mem_append.mp hoth with hold | hnew
  · exact .inl hold
  · exact .inr (mem_singleton.mp hnew ▸ hscan)

/-- The loop sends one request, or all directories are answered and the scan reads its candidates. -/
theorem Between.submitDirs (o : Outside) (rest : List Path) : ∀ {s : LocalScan} (submits : List Bool), s.Between →
    s.dirs.drop s.dirCursor = rest → s.candidates = [] ∨ s.Apart o → (s.submitDirs o rest submits).Kept := by
  induction rest with
  | nil =>
    intro s submits h hrest hapart
    have hall : s.answered = s.dirs := by
      rw [h.answered]
      exact take_of_length_le (drop_eq_nil_iff.mp hrest)
    have hfnd := h.found
    have hpar := h.parsed
    have hparsing : ({ s with phase := .parsePackages } : LocalScan).Parsing :=
      ⟨h.numbered.same rfl rfl rfl rfl rfl (fun _ => .inl) (fun _ => rfl),
        ⟨hfnd.cursor, hfnd.initial, hfnd.below, hfnd.found⟩,
        ⟨hpar.cursor, hpar.reads, hpar.apart, hpar.keys, hpar.distinct, hpar.seen, hpar.only⟩,
        h.goes, rfl, h.timer, h.own, hall⟩
    exact hparsing.schedule hapart
  | cons dir rest ih =>
    intro s submits h hrest hapart
    obtain ⟨hcurs, htake, hdrop⟩ := take_drop_cons hrest
    have hlast : s.scans - 1 + 1 = s.scans := Nat.succ_pred_eq_of_pos (h.numbered.context h.goes).2
    have hnext : s.answered ++ [dir] = s.dirs.take (s.dirCursor + 1) := by
      rw [htake, h.answered]
    unfold LocalScan.submitDirs
    dsimp only
    split
    · exact h.asks rfl hlast rfl hcurs hnext
    · have hfnd := h.found
      have hpar := h.parsed
      refine ih _ ⟨h.numbered.same rfl rfl rfl rfl rfl (fun _ => .inl) (fun _ => rfl),
        ⟨hcurs, hfnd.initial, hfnd.below, hfnd.found⟩,
        ⟨hpar.cursor, hpar.reads, hpar.apart, hpar.keys, hpar.distinct, hpar.seen, hpar.only⟩,
        h.goes, h.phase, h.timer, h.own, hnext⟩ hdrop hapart

theorem Between.submitNext (h : s.Between) {generation : ℕ} (hgen : generation = s.asyncGeneration)
    (submits : List Bool) (hapart : s.candidates = [] ∨ s.Apart o) : (s.submitNext generation submits o).Kept := by
  unfold LocalScan.submitNext
  rw [if_pos ⟨(h.numbered.context h.goes).1, hgen, h.goes⟩]
  exact h.submitDirs o _ submits rfl hapart

/-! ### The entries of a directory -/

theorem mem_appendUniquePath {paths : List Path} {path dir : Path} :
    dir ∈ appendUniquePath paths path ↔ dir ∈ paths ∨ dir = path.lexicallyNormal := by
  unfold appendUniquePath
  split
  · next hmem => exact ⟨.inl, fun hdir => hdir.elim id fun heq => heq ▸ hmem⟩
  · rw [mem_append, mem_singleton]

theorem foldl_appendUniquePath (initial : List Path) : ∀ (paths : List Path), ∀ dir ∈ initial,
    dir.lexicallyNormal ∈ initial.foldl appendUniquePath paths ∧ paths ⊆ initial.foldl appendUniquePath paths := by
  have hsub : ∀ (more paths : List Path), paths ⊆ more.foldl appendUniquePath paths := by
    intro more
    induction more with
    | nil => exact fun paths => Subset.refl paths
    | cons path more ih =>
      intro paths dir hdir
      exact ih _ (mem_appendUniquePath.mpr (.inl hdir))
  induction initial with
  | nil => exact fun _ _ hdir => absurd hdir not_mem_nil
  | cons path initial ih =>
    intro paths dir hdir
    refine ⟨?_, hsub (path :: initial) paths⟩
    rcases mem_cons.mp hdir with rfl | hmem
    · exact hsub initial _ (mem_appendUniquePath.mpr (.inr rfl))
    · exact (ih _ dir hmem).1

theorem appendUniquePath_eq (paths : List Path) (path : Path) : ∃ more, appendUniquePath paths path = paths ++ more := by
  unfold appendUniquePath
  split
  · exact ⟨[], (append_nil _).symm⟩
  · exact ⟨_, rfl⟩

theorem takeEntry_eq (dir : Path) (s : LocalScan) (entry : FileEntry) : ∃ more cands,
    takeEntry dir s entry = { s with dirs := s.dirs ++ more, candidates := s.candidates ++ cands } ∧
      (entry.type = .directory → dir.filename = "apps" → (dir ++ [entry.name]).lexicallyNormal ∈ s.dirs ++ more) ∧
      (entry.type = .file → (dir ++ [entry.name]).isBpk = true →
        (dir ++ [entry.name]).lexicallyNormal ∈ cands.map LocalPackageScanCandidate.packagePath) := by
  unfold takeEntry
  split
  · next hdir =>
    obtain ⟨more, hmore⟩ := appendUniquePath_eq s.dirs (dir ++ [entry.name])
    refine ⟨more, [], by rw [hmore, append_nil], fun _ _ => ?_, fun hfile => ?_⟩
    · rw [← hmore]
      exact mem_appendUniquePath.mpr (.inr rfl)
    · rw [hdir.1] at hfile
      cases hfile
  · next hdir =>
    split
    · next hskip =>
      refine ⟨[], [], by rw [append_nil, append_nil], fun htype happs => absurd ⟨htype, happs⟩ hdir, fun hfile hbpk => ?_⟩
      rcases hskip with hoth | hnot
      · exact absurd hfile hoth
      · rw [hnot] at hbpk
        cases hbpk
    · refine ⟨[], _, by rw [append_nil], fun htype happs => absurd ⟨htype, happs⟩ hdir, fun _ _ => ?_⟩
      exact mem_singleton_self _

theorem takeEntries_eq (dir : Path) (entries : List FileEntry) : ∀ (s : LocalScan), ∃ more cands,
    entries.foldl (takeEntry dir) s = { s with dirs := s.dirs ++ more, candidates := s.candidates ++ cands } ∧
      ∀ entry ∈ entries,
        (entry.type = .directory → dir.filename = "apps" → (dir ++ [entry.name]).lexicallyNormal ∈ s.dirs ++ more) ∧
        (entry.type = .file → (dir ++ [entry.name]).isBpk = true →
          (dir ++ [entry.name]).lexicallyNormal ∈ cands.map LocalPackageScanCandidate.packagePath) := by
  induction entries with
  | nil =>
    intro s
    exact ⟨[], [], by rw [append_nil, append_nil]; rfl, fun _ hent => absurd hent not_mem_nil⟩
  | cons entry entries ih =>
    intro s
    obtain ⟨more, cands, heq, hdir, hfile⟩ := takeEntry_eq dir s entry
    obtain ⟨more', cands', heq', hall⟩ := ih (takeEntry dir s entry)
    refine ⟨more ++ more', cands ++ cands', ?_, fun other hoth => ?_⟩
    · rw [foldl_cons, heq', heq]
      dsimp only
      rw [append_assoc, append_assoc]
    · rw [← append_assoc, map_append]
      rcases mem_cons.mp hoth with rfl | hmem
      · exact ⟨fun htype happs => mem_append_left _ (hdir htype happs),
          fun htype hbpk => mem_append_left _ (hfile htype hbpk)⟩
      · obtain ⟨hdir', hfile'⟩ := hall other hmem
        rw [heq] at hdir'
        exact ⟨hdir', fun htype hbpk => mem_append_right _ (hfile' htype hbpk)⟩

/-- The entries of a directory leave its packages among the candidates, and the directories in it among the directories. -/
theorem takeEntries_listing (dir : Path) (entries : List FileEntry) (s : LocalScan) (scan : ℕ) : ∃ more cands,
    entries.foldl (takeEntry dir) s = { s with dirs := s.dirs ++ more, candidates := s.candidates ++ cands } ∧
      ({ scan := scan, dir := dir, entries := entries } : Listing).subdirs ⊆ s.dirs ++ more ∧
      ({ scan := scan, dir := dir, entries := entries } : Listing).packages ⊆
        cands.map LocalPackageScanCandidate.packagePath := by
  obtain ⟨more, cands, heq, hall⟩ := takeEntries_eq dir entries s
  refine ⟨more, cands, heq, fun path hpath => ?_, fun path hpath => ?_⟩
  · unfold Listing.subdirs at hpath
    split at hpath
    · next happs =>
      obtain ⟨entry, hent, rfl⟩ := List.mem_map.mp hpath
      obtain ⟨hmem, htype⟩ := mem_filter.mp hent
      exact (hall entry hmem).1 (of_decide_eq_true htype) happs
    · exact absurd hpath not_mem_nil
  · obtain ⟨entry, hent, rfl⟩ := List.mem_map.mp hpath
    obtain ⟨hmem, hkind⟩ := mem_filter.mp hent
    obtain ⟨htype, hbpk⟩ := Bool.and_eq_true_iff.mp hkind
    exact (hall entry hmem).2 (of_decide_eq_true htype) hbpk

/-! ### The answers -/

theorem own_note (s : LocalScan) (request : Request) (entries : Option (List FileEntry)) :
    (s.note request entries).own = s.own.erase request :=
  erase_filter.symm

theorem Kept.unfinished (h : s.Kept) (hreq : request ∈ s.inFlight) : request.scan ∉ s.finished := by
  by_cases hscan : request.scan + 1 = s.scans
  · have hown : request ∈ s.own := mem_filter.mpr ⟨hreq, decide_eq_true hscan⟩
    cases h.chained with
    | idle _ _ hcanc => exact fun hfin => h.numbered.apart _ hfin (hcanc request hown)
    | asks _ hgoes => exact (h.numbered.current hgoes _ hscan).1
    | reads _ _ _ _ hnone =>
      rw [hnone] at hown
      exact absurd hown not_mem_nil
  · exact fun hfin => h.numbered.apart _ hfin ((h.numbered.requests request hreq).2 hscan)

theorem Kept.note (h : s.Kept) (hreq : request ∈ s.inFlight) (entries : Option (List FileEntry)) :
    (s.note request entries).Numbered := by
  have hunfinished := h.unfinished hreq
  have hlst : ∀ l ∈ (s.note request entries).listed, l ∈ s.listed ∨ l.scan = request.scan := by
    intro l hl
    rcases mem_append.mp hl with hold | hnew
    · exact .inl hold
    · obtain ⟨_, -, rfl⟩ := map_eq_some_iff.mp (mem_toList.mp hnew)
      exact .inr rfl
  have hn := h.numbered
  refine ⟨fun p hp => ?_, hn.once, hn.apart, hn.each, hn.current, hn.published, hn.ended, fun l hl => ?_,
    fun other hoth => hn.requests other (mem_of_mem_erase hoth), hn.context⟩
  · obtain ⟨hlatest, hans, hinitial, hbelow, hfnd, hlists⟩ := hn.right p hp
    have hoth : ∀ l ∈ (s.note request entries).listed, l.scan = p.scan → l ∈ s.listed := by
      intro l hl hscan
      refine (hlst l hl).resolve_right fun hsame => hunfinished ?_
      rw [← hsame, hscan]
      exact List.mem_map_of_mem hp
    exact ⟨hlatest, hans, hinitial, fun l hl hscan => hbelow l (hoth l hl hscan) hscan,
      fun l hl hscan => hfnd l (hoth l hl hscan) hscan, hlists⟩
  · rcases hlst l hl with hold | hsame
    · exact hn.listed l hold
    · rw [hsame]
      exact (hn.requests request hreq).1

theorem Kept.stale (h : s.Kept) (hreq : request ∈ s.inFlight) (entries : Option (List FileEntry))
    (hstale : ¬ s.Accepts request.generation) : (s.note request entries).Kept := by
  have hn := h.note hreq entries
  have hscan : s.inProgress = true → request.scan + 1 ≠ s.scans := by
    intro hgoes hscan
    have hown : request ∈ s.own := mem_filter.mpr ⟨hreq, decide_eq_true hscan⟩
    cases h.chained with
    | idle hidle =>
      rw [hidle] at hgoes
      cases hgoes
    | asks asked _ _ _ hasked hgen =>
      rw [hasked] at hown
      rw [mem_singleton.mp hown] at hstale
      exact hstale ⟨(h.numbered.context hgoes).1, hgen, hgoes⟩
    | reads _ _ _ _ hnone =>
      rw [hnone] at hown
      exact absurd hown not_mem_nil
  have hown : s.inProgress = true → (s.note request entries).own = s.own := by
    intro hgoes
    rw [own_note]
    refine erase_of_not_mem fun hmem => hscan hgoes ?_
    exact of_decide_eq_true (mem_filter.mp hmem).2
  refine ⟨hn, fun hgoes => ?_, fun hgoes => ?_, ?_⟩
  · have hfnd := h.found hgoes
    have hold : ∀ l ∈ (s.note request entries).listed, l.scan + 1 = s.scans → l ∈ s.listed := by
      intro l hl hlast
      rcases mem_append.mp hl with hold | hnew
      · exact hold
      · obtain ⟨_, -, rfl⟩ := map_eq_some_iff.mp (mem_toList.mp hnew)
        exact absurd hlast (hscan hgoes)
    exact ⟨hfnd.cursor, hfnd.initial, fun l hl hlast => hfnd.below l (hold l hl hlast) hlast,
      fun l hl hlast => hfnd.found l (hold l hl hlast) hlast⟩
  · have hpar := h.parsed hgoes
    exact ⟨hpar.cursor, hpar.reads, hpar.apart, hpar.keys, hpar.distinct, hpar.seen, hpar.only⟩
  · cases h.chained with
    | idle hidle htim hcanc =>
      refine .idle hidle htim fun other hoth => hcanc other ?_
      rw [own_note] at hoth
      exact mem_of_mem_erase hoth
    | asks asked hgoes hph htim hasked hgen hans =>
      exact .asks asked hgoes hph htim ((hown hgoes).trans hasked) hgen hans
    | reads hgoes hph htim hset hnone hans =>
      exact .reads hgoes hph htim hset ((hown hgoes).trans hnone) hans

/-- The scan has the answer that it waits for. -/
structure Heard (s : LocalScan) (request : Request) : Prop where
  kept : s.Kept
  mem : request ∈ s.inFlight
  goes : s.inProgress = true
  phase : s.phase = .statDirectory
  timer : s.timerId = 0
  own : s.own = [request]
  generation : request.generation = s.asyncGeneration
  answered : s.answered ++ [request.dir] = s.dirs.take s.dirCursor
  scan : request.scan + 1 = s.scans

theorem Kept.heard (h : s.Kept) (hreq : request ∈ s.inFlight) (haccs : s.Accepts request.generation)
    (hscan : request.scan + 1 = s.scans) : s.Heard request := by
  have hown : request ∈ s.own := mem_filter.mpr ⟨hreq, decide_eq_true hscan⟩
  obtain ⟨-, hgen, hgoes⟩ := haccs
  cases h.chained with
  | idle hidle =>
    rw [hidle] at hgoes
    cases hgoes
  | asks asked _ hph htim hasked _ hans =>
    have hmem := hown
    rw [hasked] at hmem
    obtain rfl := mem_singleton.mp hmem
    exact ⟨h, hreq, hgoes, hph, htim, hasked, hgen, hans, hscan⟩
  | reads _ _ _ _ hnone =>
    rw [hnone] at hown
    exact absurd hown not_mem_nil

theorem Heard.own_note (h : s.Heard request) (entries : Option (List FileEntry)) :
    (s.note request entries).own = [] := by
  rw [LocalScan.own_note, h.own, erase_cons_head]

/-- The scan goes on with an answer, if what is listed is among its directories and its candidates. -/
theorem Heard.goOn (h : s.Heard request) (entries : Option (List FileEntry)) (more : List Path)
    (cands : List LocalPackageScanCandidate)
    (hlst : ∀ found ∈ entries,
      ({ scan := request.scan, dir := request.dir, entries := found } : Listing).subdirs ⊆ s.dirs ++ more ∧
      ({ scan := request.scan, dir := request.dir, entries := found } : Listing).packages ⊆
        cands.map LocalPackageScanCandidate.packagePath)
    (ht : t = { s.note request entries with dirs := s.dirs ++ more, candidates := s.candidates ++ cands }) (submits : List Bool) (hapart : s.Apart o) : (t.goOn request submits o).Kept := by
  have hfnd := h.kept.found h.goes
  have hpar := h.kept.parsed h.goes
  have hn := h.kept.note h.mem entries
  have hall : ∀ l ∈ (s.note request entries).listed, l.scan + 1 = s.scans →
      l.subdirs ⊆ s.dirs ++ more ∧ l.packages ⊆ (s.candidates ++ cands).map LocalPackageScanCandidate.packagePath := by
    intro l hl hlast
    rw [map_append]
    rcases mem_append.mp hl with hold | hnew
    · exact ⟨Subset.trans (hfnd.below l hold hlast) (subset_append_left _ _),
        Subset.trans (hfnd.found l hold hlast) (subset_append_left _ _)⟩
    · obtain ⟨found, hents, rfl⟩ := map_eq_some_iff.mp (mem_toList.mp hnew)
      obtain ⟨hbelow, hpkgs⟩ := hlst found hents
      exact ⟨hbelow, Subset.trans hpkgs (subset_append_right _ _)⟩
  have hbtw : ({ t with answered := t.answered ++ [request.dir] } : LocalScan).Between := by
    rw [ht]
    refine ⟨hn.same rfl rfl rfl rfl rfl (fun _ => .inl) (fun _ => rfl), ⟨?_, ?_, ?_, ?_⟩,
      ⟨?_, ?_, hpar.apart, hpar.keys, hpar.distinct, hpar.seen, hpar.only⟩, h.goes, h.phase, h.timer,
      h.own_note entries, ?_⟩
    · exact hfnd.cursor.trans (length_append ▸ Nat.le_add_right _ _)
    · exact fun dir hdir => mem_append_left _ (hfnd.initial dir hdir)
    · exact fun l hl hlast => (hall l hl hlast).1
    · exact fun l hl hlast => (hall l hl hlast).2
    · exact hpar.cursor.trans (length_append ▸ Nat.le_add_right _ _)
    · change s.reads.map Prod.fst = ((s.candidates ++ cands).take s.candidateCursor).map _
      rw [take_append_of_le_length hpar.cursor]
      exact hpar.reads
    · change s.answered ++ [request.dir] = (s.dirs ++ more).take s.dirCursor
      rw [take_append_of_le_length hfnd.cursor]
      exact h.answered
  have hgen : request.generation = t.asyncGeneration := ht ▸ h.generation
  have hreads : t.reads = s.reads := ht ▸ rfl
  refine hbtw.submitNext hgen submits (.inr ?_)
  unfold Apart
  rw [show ({ t with answered := t.answered ++ [request.dir] } : LocalScan).reads = s.reads from hreads]
  exact hapart

theorem Kept.handleStat (h : s.Kept) (hreq : request ∈ s.inFlight) {isDirectory : Bool}
    (hscan : s.Accepts request.generation → request.scan + 1 = s.scans) (hapart : s.Apart o) :
    ((s.note request none).handleStat request isDirectory o).Kept := by
  have hsame : s.note request none = { s.note request none with dirs := s.dirs ++ [], candidates := s.candidates ++ [] } := by
    rw [append_nil, append_nil]
    rfl
  unfold LocalScan.handleStat
  split
  · next hstale => exact h.stale hreq none hstale
  · next haccs =>
    have haccs : s.Accepts request.generation := not_not.mp haccs
    have hheard := h.heard hreq haccs (hscan haccs)
    split
    · exact hheard.goOn none [] [] (fun _ hnone => absurd hnone (not_mem_none _)) hsame _ hapart
    · split
      · have hfnd := h.found hheard.goes
        have hpar := h.parsed hheard.goes
        have hown : ({ s.note request none with
            inFlight := (s.note request none).inFlight ++ [{ request with kind := .list }] } : LocalScan).own =
              [{ request with kind := .list }] := by
          refine (filter_append ..).trans ?_
          rw [show List.filter _ (s.note request none).inFlight = [] from hheard.own_note none, nil_append]
          refine filter_eq_self.mpr fun other hoth => ?_
          rw [mem_singleton.mp hoth]
          exact decide_eq_true hheard.scan
        refine ⟨(h.note hreq none).same rfl rfl rfl rfl rfl (fun other hoth => ?_) (fun _ => rfl), fun _ => ?_,
          fun _ => ⟨hpar.cursor, hpar.reads, hpar.apart, hpar.keys, hpar.distinct, hpar.seen, hpar.only⟩,
          .asks { request with kind := .list } hheard.goes hheard.phase hheard.timer hown hheard.generation hheard.answered⟩
        · rcases mem_append.mp hoth with hold | hnew
          · exact .inl hold
          · rw [mem_singleton.mp hnew]
            exact .inr hheard.scan
        · have hlst : (s.note request none).listed = s.listed := append_nil _
          refine ⟨hfnd.cursor, hfnd.initial, fun l hl => hfnd.below l (hlst ▸ hl), fun l hl => hfnd.found l (hlst ▸ hl)⟩
      · exact hheard.goOn none [] [] (fun _ hnone => absurd hnone (not_mem_none _)) hsame _ hapart

theorem Kept.handleList (h : s.Kept) (hreq : request ∈ s.inFlight) {entries : Option (List FileEntry)} (hscan : s.Accepts request.generation → request.scan + 1 = s.scans) (hapart : s.Apart o) :
    ((s.note request entries).handleList request entries o).Kept := by
  unfold LocalScan.handleList
  split
  · next hstale => exact h.stale hreq entries hstale
  · next haccs =>
    have haccs : s.Accepts request.generation := not_not.mp haccs
    have hheard := h.heard hreq haccs (hscan haccs)
    split
    · refine hheard.goOn none [] [] (fun _ hnone => absurd hnone (not_mem_none _)) ?_ _ hapart
      rw [append_nil, append_nil]
      rfl
    · next found =>
      obtain ⟨more, cands, heq, hsubdirs, hpkgs⟩ :=
        takeEntries_listing request.dir found (s.note request (some found)) request.scan
      refine hheard.goOn (some found) more cands (fun other hoth => ?_) heq _ hapart
      cases hoth
      exact ⟨hsubdirs, hpkgs⟩

/-! ### The scans -/

theorem Kept.rest (h : s.Kept) (hidle : s.inProgress = false) (hpubs : t.publications = s.publications)
    (hcanc : t.cancelled = s.cancelled) (hscans : t.scans = s.scans) (hgoes : t.inProgress = s.inProgress)
    (hlst : t.listed = s.listed) (hfli : t.inFlight = s.inFlight) (htim : t.timerId = s.timerId) : t.Kept := by
  have hstill : t.inProgress ≠ true := by
    rw [hgoes, hidle]
    exact Bool.false_ne_true
  refine ⟨h.numbered.same hpubs hcanc hscans hgoes hlst (fun request hreq => .inl (hfli ▸ hreq))
    (fun hp => absurd hp hstill), fun hp => absurd hp hstill, fun hp => absurd hp hstill, ?_⟩
  have hown : t.own = s.own := by
    unfold own
    rw [hfli, hscans]
  cases h.chained with
  | idle _ hnone hall =>
    refine .idle (hgoes.trans hidle) (htim.trans hnone) ?_
    rw [hown, hcanc]
    exact hall
  | asks _ hgoes' =>
    rw [hidle] at hgoes'
    cases hgoes'
  | reads hgoes' =>
    rw [hidle] at hgoes'
    cases hgoes'

theorem Kept.cancel (h : s.Kept) (stops : Bool) : (s.cancel stops).Kept := by
  have hn := h.numbered
  by_cases hgoes : s.inProgress = true
  · obtain ⟨-, hpos⟩ := hn.context hgoes
    have hlast : s.scans - 1 + 1 = s.scans := Nat.succ_pred_eq_of_pos hpos
    have hcanc : (s.cancel stops).cancelled = s.cancelled ++ [s.scans - 1] := if_pos hgoes
    have hold : s.cancelled ⊆ (s.cancel stops).cancelled := hcanc ▸ subset_append_left _ _
    have hnew : s.scans - 1 ∈ (s.cancel stops).cancelled := hcanc ▸ mem_append_right _ (mem_singleton_self _)
    refine ⟨⟨fun p hp => (hn.right p hp).same rfl, hn.once, fun n hn' => ?_, fun n hn' => ?_, fun hp => ?_, hn.published,
      fun n hn' => ?_, hn.listed, fun request hreq => ?_, fun hp => ?_⟩, fun hp => ?_, fun hp => ?_,
      .idle rfl rfl fun request hreq => ?_⟩
    · rw [hcanc, mem_append, mem_singleton]
      rintro (hmem | rfl)
      · exact hn.apart n hn' hmem
      · exact (hn.current hgoes _ hlast).1 hn'
    · rcases hn.each n hn' with hfin | hmem | ⟨hcur, -⟩
      · exact .inl hfin
      · exact .inr (.inl (hold hmem))
      · obtain rfl : n = s.scans - 1 := by omega
        exact .inr (.inl hnew)
    · cases hp
    · rw [hcanc, mem_append, mem_singleton] at hn'
      rcases hn' with hmem | rfl
      · exact hn.ended n hmem
      · exact Nat.pred_lt_of_lt hpos
    · obtain ⟨hlt, hoth⟩ := hn.requests request hreq
      exact ⟨hlt, fun hne => hold (hoth hne)⟩
    · cases hp
    · cases hp
    · cases hp
    · have hscan : request.scan + 1 = s.scans := of_decide_eq_true (mem_filter.mp hreq).2
      obtain heq : request.scan = s.scans - 1 := by omega
      exact heq ▸ hnew
  · have hidle : s.inProgress = false := Bool.eq_false_iff.mpr hgoes
    have htim : s.timerId = 0 := by
      cases h.chained with
      | idle _ hnone => exact hnone
      | asks _ hgoes' => exact absurd hgoes' hgoes
      | reads hgoes' => exact absurd hgoes' hgoes
    exact h.rest hidle rfl (if_neg hgoes) rfl hidle.symm rfl rfl htim.symm

theorem Kept.start (h : s.Kept) (hctx : s.context = true) (initial : List Path) (refreshView stops : Bool) (o : Outside) :
    (s.start initial refreshView stops o).Kept := by
  have hk := h.cancel stops
  have hn := hk.numbered
  have hown : ∀ request ∈ (s.cancel stops).own, request.scan ∈ (s.cancel stops).cancelled := by
    cases hk.chained with
    | idle _ _ hall => exact hall
    | asks _ hgoes => cases hgoes
    | reads hgoes => cases hgoes
  refine Between.submitNext (s := { s.cancel stops with
      inProgress := true, refreshView := refreshView, phase := .statDirectory
      dirs := initial.foldl appendUniquePath []
      scans := (s.cancel stops).scans + 1, initial := initial, answered := [], reads := [] }) ?_ rfl _ (.inl rfl)
  refine ⟨⟨fun p hp => (hn.right p hp).same rfl, hn.once, hn.apart, fun n hlt => ?_, fun _ n hlast => ⟨fun hmem => ?_, fun hmem => ?_⟩,
    fun n hmem => Nat.lt_succ_of_lt (hn.published n hmem), fun n hmem => Nat.lt_succ_of_lt (hn.ended n hmem),
    fun l hl => Nat.lt_succ_of_lt (hn.listed l hl), fun request hreq => ⟨?_, fun hne => ?_⟩,
    fun _ => ⟨hctx, Nat.succ_pos _⟩⟩,
    ⟨Nat.zero_le _, fun dir hdir => (foldl_appendUniquePath initial [] dir hdir).1, fun l hl hlast => ?_, fun l hl hlast => ?_⟩,
    ⟨Nat.zero_le _, rfl, fun m hm => absurd hm not_mem_nil, rfl, nodup_nil, fun m hm => absurd hm not_mem_nil,
      fun package hpkg => absurd hpkg not_mem_nil⟩, rfl, rfl, rfl, ?_, rfl⟩
  · have hlt : n < (s.cancel stops).scans + 1 := hlt
    rcases Nat.lt_succ_iff_lt_or_eq.mp hlt with hbef | rfl
    · rcases hn.each n hbef with hfin | hmem | ⟨-, hgoes⟩
      · exact .inl hfin
      · exact .inr (.inl hmem)
      · cases hgoes
    · exact .inr (.inr ⟨rfl, rfl⟩)
  · have hlast : n + 1 = (s.cancel stops).scans + 1 := hlast
    have hbef := hn.published n hmem
    omega
  · have hlast : n + 1 = (s.cancel stops).scans + 1 := hlast
    have hbef := hn.ended n hmem
    omega
  · exact Nat.lt_succ_of_lt (hn.requests request hreq).1
  · by_cases hscan : request.scan + 1 = (s.cancel stops).scans
    · exact hown request (mem_filter.mpr ⟨hreq, decide_eq_true hscan⟩)
    · exact (hn.requests request hreq).2 hscan
  · have hlast : l.scan + 1 = (s.cancel stops).scans + 1 := hlast
    have hbef := hn.listed l hl
    omega
  · have hlast : l.scan + 1 = (s.cancel stops).scans + 1 := hlast
    have hbef := hn.listed l hl
    omega
  · refine filter_eq_nil_iff.mpr fun request hreq hscan => ?_
    have hscan : request.scan + 1 = (s.cancel stops).scans + 1 := of_decide_eq_true hscan
    have hbef := (hn.requests request hreq).1
    omega

theorem processStep_idle (order : LocalPackageEntry → LocalPackageEntry → Bool) (starts : List Bool)
    (manifests : List (Option AppManifest)) {s : LocalScan} (h : s.inProgress = false ∨ s.phase ≠ .parsePackages) :
    LocalScan.processStep order starts manifests s = s := by
  cases starts with
  | nil =>
    unfold LocalScan.processStep
    rw [if_pos h]
  | cons =>
    unfold LocalScan.processStep
    rw [if_pos h]

theorem Kept.onTimer (h : s.Kept) {id : ℕ} (hapart : s.Apart o) :
    ({ s with timers := s.timers.erase id }.onTimer id o).Kept := by
  unfold LocalScan.onTimer
  split
  · next hoth =>
    have hn := h.numbered
    refine ⟨hn.same rfl rfl rfl rfl rfl (fun _ => .inl) (fun _ => rfl), fun hgoes => ?_, fun hgoes => ?_, ?_⟩
    · have hfnd := h.found hgoes
      exact ⟨hfnd.cursor, hfnd.initial, hfnd.below, hfnd.found⟩
    · have hpar := h.parsed hgoes
      exact ⟨hpar.cursor, hpar.reads, hpar.apart, hpar.keys, hpar.distinct, hpar.seen, hpar.only⟩
    · cases h.chained with
      | idle hidle htim hcanc => exact .idle hidle htim hcanc
      | asks request hgoes hph htim hown hgen hans =>
        exact .asks request hgoes hph htim hown hgen hans
      | reads hgoes hph htim hset hown hans =>
        exact .reads hgoes hph htim ((mem_erase_of_ne fun heq => hoth heq.symm).mpr hset) hown hans
  · next hid =>
    have hn : ({ s with timers := s.timers.erase id, timerId := 0 } : LocalScan).Numbered :=
      h.numbered.same rfl rfl rfl rfl rfl (fun _ => .inl) (fun _ => rfl)
    cases h.chained with
    | idle hidle htim hcanc =>
      rw [processStep_idle (s := { s with timers := s.timers.erase id, timerId := 0 }) _ _ _ (.inl hidle)]
      exact h.rest hidle rfl rfl rfl rfl rfl rfl htim.symm
    | asks request hgoes hph htim hown hgen hans =>
      have hoth : s.phase ≠ .parsePackages := by
        rw [hph]
        exact LocalPackageScanPhase.noConfusion
      rw [processStep_idle (s := { s with timers := s.timers.erase id, timerId := 0 }) _ _ _ (.inr hoth)]
      have hfnd := h.found hgoes
      have hpar := h.parsed hgoes
      exact ⟨hn, fun _ => ⟨hfnd.cursor, hfnd.initial, hfnd.below, hfnd.found⟩,
        fun _ => ⟨hpar.cursor, hpar.reads, hpar.apart, hpar.keys, hpar.distinct, hpar.seen, hpar.only⟩,
        .asks request hgoes hph rfl hown hgen hans⟩
    | reads hgoes hph htim hset hown hans =>
      have hfnd := h.found hgoes
      have hpar := h.parsed hgoes
      refine Parsing.processStep _ _ _ ?_ (.inr hapart)
      exact ⟨hn, ⟨hfnd.cursor, hfnd.initial, hfnd.below, hfnd.found⟩,
        ⟨hpar.cursor, hpar.reads, hpar.apart, hpar.keys, hpar.distinct, hpar.seen, hpar.only⟩, hgoes, hph, rfl,
        hown, hans⟩

/-! ### The runs -/

theorem kept_inductive : scanMachine.Inductive Own Kept := by
  refine ⟨fun s hs => ?_, fun s label s' h hc hst => ?_⟩
  · obtain rfl : s = {} := hs
    refine ⟨⟨?_, nodup_nil, ?_, ?_, ?_, ?_, ?_, ?_, ?_, ?_⟩, ?_, ?_, .idle rfl rfl ?_⟩
    · exact fun p hp => absurd hp not_mem_nil
    · exact fun n hn => absurd hn not_mem_nil
    · exact fun n hn => absurd hn (Nat.not_lt_zero n)
    · exact fun hgoes => absurd hgoes Bool.false_ne_true
    · exact fun n hn => absurd hn not_mem_nil
    · exact fun n hn => absurd hn not_mem_nil
    · exact fun l hl => absurd hl not_mem_nil
    · exact fun request hreq => absurd hreq not_mem_nil
    · exact fun hgoes => absurd hgoes Bool.false_ne_true
    · exact fun hgoes => absurd hgoes Bool.false_ne_true
    · exact fun hgoes => absurd hgoes Bool.false_ne_true
    · exact fun request hreq => absurd hreq not_mem_nil
  have hst : s.step label = some s' := hst
  cases label with
  | onStart =>
    obtain ⟨hoff, rfl⟩ := of_guard hst
    have hidle : s.inProgress = false := by
      refine Bool.eq_false_iff.mpr fun hgoes => ?_
      rw [(h.numbered.context hgoes).1] at hoff
      cases hoff
    exact h.rest hidle rfl rfl rfl rfl rfl rfl rfl
  | onStop stops =>
    obtain ⟨-, rfl⟩ := of_guard hst
    exact (h.cancel stops).rest rfl rfl rfl rfl rfl rfl rfl rfl
  | start initial refreshView stops o =>
    obtain ⟨hon, rfl⟩ := of_guard hst
    exact h.start hon initial refreshView stops o
  | cancel stops =>
    obtain ⟨-, rfl⟩ := of_guard hst
    exact h.cancel stops
  | stat request isDirectory o =>
    obtain ⟨⟨hreq, -⟩, rfl⟩ := of_guard hst
    exact h.handleStat hreq hc.1 hc.2
  | list request entries o =>
    obtain ⟨⟨hreq, -⟩, rfl⟩ := of_guard hst
    exact h.handleList hreq hc.1 hc.2
  | timer id o =>
    obtain ⟨-, rfl⟩ := of_guard hst
    exact h.onTimer hc

/-- **A local package scan is complete.** Whatever the order of the calls, the answers and the steps of the timer: every list that is
published is that of the scan that was started last, with one package for each manifest of its directories; and a scan that is not
cancelled finishes once, and waits for an answer or the timer until then. This holds in the runs in which an answer that is accepted
belongs to the scan that goes on, and no two different packages have the same key. -/
theorem scan_complete (h : scanMachine.Reach Own s) : s.Complete := (kept_inductive.reach h).complete

/-- A scan is stopped with the app, and its answer comes late; the next one reads one package. -/
def stoppedRun : List Label :=
  [.start [["apps"]] false true {}, .onStop true, .onStart, .start [["apps"]] true true {},
    .stat { kind := .stat, generation := 1, dir := ["apps"], scan := 0 } true {},
    .stat { kind := .stat, generation := 3, dir := ["apps"], scan := 1 } true {},
    .list { kind := .list, generation := 3, dir := ["apps"], scan := 1 }
      (some [{ name := "x", type := .directory }, { name := "a.bpk", type := .file, size := 7 }]) {},
    .stat { kind := .stat, generation := 3, dir := ["apps", "x"], scan := 1 } false {},
    .timer 1 { manifests := [some { id := "a", version := "1" }] }, .timer 2 {}]

theorem scan_complete_stoppedRun : ∃ s : LocalScan, s.Complete ∧ s.finished = [1] ∧ s.cancelled = [0] := by
  obtain ⟨s, hs, hfacts⟩ := map_eq_some_iff.mp (by decide +kernel :
    (scanMachine.execWhen Own {} stoppedRun).map (fun s => (s.finished, s.cancelled)) = some ([1], [0]))
  have hpair := hfacts
  exact ⟨s, scan_complete (.execWhen (.init rfl) hs), congrArg Prod.fst hpair, congrArg Prod.snd hpair⟩

/-- A scan is started again, and the answer to the first one moves the second one past a directory that is being listed. -/
def restartedRun : List Label :=
  [.start [["a"], ["b"]] false true {}, .start [["a"], ["b"]] false true {},
    .stat { kind := .stat, generation := 1, dir := ["a"], scan := 1 } true {},
    .stat { kind := .stat, generation := 1, dir := ["a"], scan := 0 } false {},
    .stat { kind := .stat, generation := 1, dir := ["b"], scan := 1 } false {},
    .timer 1 {},
    .list { kind := .list, generation := 1, dir := ["a"], scan := 1 } (some [{ name := "p.bpk", type := .file }]) {}]

/-- The second scan has finished without the package of its first directory. -/
theorem scan_complete_restartedRun : ¬ ∀ s, scanMachine.Reachable s → s.Complete := by
  intro hall
  obtain ⟨s, hs, hfacts⟩ := map_eq_some_iff.mp (by decide +kernel : (scanMachine.exec {} restartedRun).map (fun s =>
      (s.publications.map fun p => (p.scan, p.reads.map Prod.fst), s.listed)) =
        some ([(1, [])], [{ scan := 1, dir := ["a"], entries := [{ name := "p.bpk", type := .file }] }]))
  obtain ⟨hpubs, hlst⟩ := Prod.mk.inj hfacts
  obtain ⟨p, hp, hfields⟩ := List.mem_map.mp (hpubs ▸ mem_singleton_self (1, ([] : List Path)))
  have hright := (hall s (.exec (.init rfl) hs)).right p hp
  have hfnd := hright.found _ (hlst ▸ mem_singleton_self _) (congrArg Prod.fst hfields).symm
  rw [show p.reads.map Prod.fst = [] from congrArg Prod.snd hfields] at hfnd
  have hpkg : (["a", "p.bpk"] : Path) ∈ Listing.packages
      { scan := 1, dir := ["a"], entries := [{ name := "p.bpk", type := .file }] } := by decide +kernel
  exact not_mem_nil (hfnd hpkg)

end LocalScan

end Brookesia.AppStore
