import Mathlib.Data.List.Nodup
import DatafileMigration.Proofs.Project.Candidate

namespace DatafileMigration

open DatafileMigration.Path (IsNormal)

namespace Candidate

/-- The text by which files are told apart. It is the path with one kind of slashes, so that it
tells files apart unless a name of theirs holds the other kind. -/
def key (c : Candidate) : Text := Path.unifySlashes (Path.normalize c.absolute)

/-- The place that the names of the path stand for. -/
def place (c : Candidate) : Place := Path.normalSegments c.absolute

/-- The first candidate of each key that was not seen. -/
def fresh (seen : List Text) : List Candidate → List Candidate
  | [] => []
  | c :: cs => if c.key ∈ seen then fresh seen cs else c :: fresh (c.key :: seen) cs

variable {seen : List Text} {c e : Candidate} {cs cs' : List Candidate}

theorem fresh_append (seen : List Text) (cs cs' : List Candidate) : fresh seen (cs ++ cs') =
    fresh seen cs ++ fresh (((fresh seen cs).map key).reverse ++ seen) cs' := by
  induction cs generalizing seen with
  | nil => rfl
  | cons c cs ih =>
    rw [List.cons_append, fresh, fresh]
    split
    · exact ih seen
    · rw [ih, List.map_cons, List.reverse_cons, List.append_assoc, List.singleton_append,
        List.cons_append]

theorem fresh_sublist (seen : List Text) (cs : List Candidate) : (fresh seen cs).Sublist cs := by
  induction cs generalizing seen with
  | nil => exact List.Sublist.refl _
  | cons c cs ih =>
    rw [fresh]
    split
    · exact (ih seen).cons c
    · exact (ih _).cons_cons c

theorem key_not_mem_of_mem_fresh (member : e ∈ fresh seen cs) : e.key ∉ seen := by
  induction cs generalizing seen with
  | nil => cases member
  | cons c cs ih =>
    rw [fresh] at member
    split at member
    · exact ih member
    · rename_i new
      rcases List.mem_cons.mp member with rfl | member
      · exact new
      · exact fun known => ih member (List.mem_cons_of_mem _ known)

theorem pairwise_fresh (seen : List Text) (cs : List Candidate) :
    (fresh seen cs).Pairwise fun c c' => c.key ≠ c'.key := by
  induction cs generalizing seen with
  | nil => exact List.Pairwise.nil
  | cons c cs ih =>
    rw [fresh]
    split
    · exact ih seen
    · refine List.pairwise_cons.mpr ⟨fun e member same => ?_, ih _⟩
      exact key_not_mem_of_mem_fresh member (same ▸ List.mem_cons_self)

theorem exists_mem_fresh (member : c ∈ cs) (new : c.key ∉ seen) :
    ∃ e ∈ fresh seen cs, e.key = c.key := by
  induction cs generalizing seen with
  | nil => cases member
  | cons first cs ih =>
    rw [fresh]
    split
    case isTrue known =>
      rcases List.mem_cons.mp member with rfl | member
      · exact absurd known new
      · exact ih member new
    case isFalse =>
      by_cases same : first.key = c.key
      · exact ⟨first, List.mem_cons_self, same⟩
      · rcases List.mem_cons.mp member with rfl | member
        · exact absurd rfl same
        · have new' : c.key ∉ first.key :: seen := by
            rw [List.mem_cons, not_or]
            exact ⟨Ne.symm same, new⟩
          obtain ⟨e, member, same⟩ := ih member new'
          exact ⟨e, List.mem_cons_of_mem _ member, same⟩

/-- The first of the lists in which a key stands decides on the candidate that is taken. -/
theorem split_of_mem_fresh {patterns : List Text} {led : Text → List Candidate}
    (member : e ∈ fresh seen (patterns.flatMap led)) : ∃ before pattern after,
      patterns = before ++ pattern :: after ∧ e ∈ led pattern ∧
      ∀ earlier ∈ before, ∀ c ∈ led earlier, c.key ≠ e.key := by
  induction patterns generalizing seen with
  | nil => cases member
  | cons pattern patterns ih =>
    rw [List.flatMap_cons, fresh_append] at member
    rcases List.mem_append.mp member with here | further
    · exact ⟨[], pattern, patterns, rfl, (fresh_sublist _ _).subset here, List.forall_mem_nil _⟩
    · have new := key_not_mem_of_mem_fresh further
      rw [List.mem_append, List.mem_reverse, not_or] at new
      obtain ⟨before, last, after, rfl, there, others⟩ := ih further
      refine ⟨pattern :: before, last, after, rfl, there, List.forall_mem_cons.mpr ⟨?_, others⟩⟩
      intro c member same
      obtain ⟨e', taken, same'⟩ := exists_mem_fresh member (same.symm ▸ new.2)
      exact new.1 (List.mem_map.mpr ⟨e', taken, same'.trans same⟩)

/-- Where keys tell candidates apart, each one is the first of its key. -/
theorem mem_fresh_iff (tell : ∀ c ∈ cs, ∀ c' ∈ cs, c.key = c'.key → c = c') :
    e ∈ fresh [] cs ↔ e ∈ cs := by
  refine ⟨fun taken => (fresh_sublist [] cs).subset taken, fun member => ?_⟩
  obtain ⟨e', taken, same⟩ := exists_mem_fresh member List.not_mem_nil
  rwa [← tell e' ((fresh_sublist [] cs).subset taken) e member same]

theorem perm_fresh (tell : ∀ c ∈ cs, ∀ c' ∈ cs, c.key = c'.key → c = c')
    (same : ∀ c, c ∈ cs ↔ c ∈ cs') : (fresh [] cs).Perm (fresh [] cs') := by
  have tell' : ∀ c ∈ cs', ∀ c' ∈ cs', c.key = c'.key → c = c' := fun c member c' member' =>
    tell c ((same c).mpr member) c' ((same c').mpr member')
  have distinct (cs : List Candidate) : (fresh [] cs).Nodup :=
    (pairwise_fresh [] cs).imp fun other => by
      rintro rfl
      exact other rfl
  rw [List.perm_ext_iff_of_nodup (distinct cs) (distinct cs')]
  intro c
  rw [mem_fresh_iff tell, mem_fresh_iff tell', same]

end Candidate

def DiscoveryFailure.isUnreadable : DiscoveryFailure → Bool
  | unreadable .. => true
  | _ => false

namespace Tree

open Candidate (fresh fresh_append fresh_sublist pairwise_fresh exists_mem_fresh)

variable {root : Tree} {resolver : Resolver} {d d' : Discovery} {c : Candidate}
  {cs taken : List Candidate} {cwd pattern : Text} {patterns : List Text}

/-- The datafile of a candidate that can be read. -/
def resource? (root : Tree) (c : Candidate) : Option DiscoveredFile :=
  match root.readText c.absolute with
  | .ok content => some
    { absolute := c.absolute
      file := { kind := c.kind, path := c.path, name := Path.resourceName c.absolute, content } }
  | .error _ => none

/-- The failure of a candidate that cannot be read. -/
def refusal? (root : Tree) (c : Candidate) : Option DiscoveryFailure :=
  match root.readText c.absolute with
  | .error (.refused e) => some (.unreadable c.path (Path.resourceName c.absolute) c.kind e)
  | _ => none

/-- A discovery gives account of candidates: each is one datafile or one failure to read it. -/
structure Accounts (root : Tree) (d : Discovery) (taken : List Candidate) : Prop where
  files : d.files.Perm (taken.filterMap root.resource?)
  refusals : d.failures.filter DiscoveryFailure.isUnreadable = taken.filterMap root.refusal?
  either : ∀ c ∈ taken, (root.resource? c).isSome ↔ root.refusal? c = none

theorem readText_cases {path : Text} (possible : isImpossible path = false) (root : Tree) :
    (∃ content, root.readText path = .ok content) ∨
      ∃ e, root.readText path = .error (.refused e) := by
  rw [readText, possible, if_neg Bool.false_ne_true]
  cases root.read path with
  | error e => exact .inr ⟨_, rfl⟩
  | ok octets =>
    dsimp only
    cases Text.decode octets with
    | error e => exact .inr ⟨_, rfl⟩
    | ok t => exact .inl ⟨_, rfl⟩

theorem isSome_resource?_iff (possible : isImpossible c.absolute = false) :
    (root.resource? c).isSome ↔ root.refusal? c = none := by
  rw [resource?, refusal?]
  rcases readText_cases possible root with ⟨content, read⟩ | ⟨e, refused⟩
  · simp [read]
  · simp [refused]

theorem discoverCandidate_of_seen (seen : c.key ∈ d.seen) :
    root.discoverCandidate d c = .ok d := by
  rw [discoverCandidate]
  exact if_pos (List.contains_iff_mem.mpr seen)

/-- A discovery after candidates are read. -/
def reading (root : Tree) (d : Discovery) (taken : List Candidate) : Discovery where
  files := d.files ++ taken.filterMap root.resource?
  failures := d.failures ++ taken.filterMap root.refusal?
  seen := (taken.map Candidate.key).reverse ++ d.seen

theorem reading_append (root : Tree) (d : Discovery) (taken more : List Candidate) :
    root.reading d (taken ++ more) = root.reading (root.reading d taken) more := by
  simp [reading]

theorem discoverCandidate_of_new (possible : isImpossible c.absolute = false)
    (new : c.key ∉ d.seen) : root.discoverCandidate d c = .ok (root.reading d [c]) := by
  rw [discoverCandidate]
  dsimp only
  rw [← Candidate.key, if_neg (mt List.contains_iff_mem.mp new)]
  rcases readText_cases possible root with ⟨content, read⟩ | ⟨e, refused⟩
  · simp [reading, resource?, refusal?, read]
  · simp [reading, resource?, refusal?, refused]

theorem discoverCandidates (possible : ∀ c ∈ cs, isImpossible c.absolute = false) (d : Discovery) :
    cs.foldlM root.discoverCandidate d = .ok (root.reading d (fresh d.seen cs)) := by
  induction cs generalizing d with
  | nil => simp [fresh, reading, pure, Except.pure]
  | cons c cs ih =>
    obtain ⟨here, others⟩ := List.forall_mem_cons.mp possible
    rw [List.foldlM_cons, bind_eq_ok, fresh]
    split
    case isTrue seen => exact ⟨d, discoverCandidate_of_seen seen, ih others d⟩
    case isFalse new =>
      refine ⟨_, discoverCandidate_of_new here new, ?_⟩
      have whole := reading_append root d [c] (fresh (c.key :: d.seen) cs)
      rw [List.singleton_append] at whole
      rw [whole]
      exact ih others _

/-- A discovery has read candidates. Other failures are those of patterns. -/
structure HasRead (root : Tree) (taken : List Candidate) (d : Discovery) : Prop where
  files : d.files = taken.filterMap root.resource?
  refusals : d.failures.filter DiscoveryFailure.isUnreadable = taken.filterMap root.refusal?
  seen : d.seen = (taken.map Candidate.key).reverse

theorem isUnreadable_of_refusal? {e : DiscoveryFailure} (refused : root.refusal? c = some e) :
    e.isUnreadable := by
  rw [refusal?] at refused
  split at refused
  · cases refused
    rfl
  · cases refused

theorem HasRead.reading (read : root.HasRead taken d) (more : List Candidate) :
    root.HasRead (taken ++ more) (root.reading d more) := by
  constructor
  case files => rw [Tree.reading, List.filterMap_append, read.files]
  case seen => rw [Tree.reading, List.map_append, List.reverse_append, read.seen]
  case refusals =>
    have all : (more.filterMap root.refusal?).filter DiscoveryFailure.isUnreadable =
        more.filterMap root.refusal? := List.filter_eq_self.mpr fun e member => by
      obtain ⟨c, _, refused⟩ := List.mem_filterMap.mp member
      exact isUnreadable_of_refusal? refused
    rw [Tree.reading, List.filter_append, List.filterMap_append, read.refusals, all]

/-- A pattern that fails is no failure to read. -/
theorem not_isUnreadable_of_candidates {e : DiscoveryFailure}
    (failed : root.candidates resolver cwd pattern = .error e) : e.isUnreadable = false := by
  rw [candidates] at failed
  dsimp only at failed
  split at failed
  · cases failed
  split at failed
  · split at failed
    · cases failed
    · cases failed
      rfl
  split at failed
  · cases failed
    rfl
  · cases failed

/-- What patterns lead to, in the order of the patterns. -/
def reached (root : Tree) (resolver : Resolver) (cwd : Text) (patterns : List Text) :
    List Candidate :=
  patterns.flatMap (root.found resolver cwd)

theorem HasRead.discoverPattern (read : root.HasRead (fresh [] cs) d)
    (possible : ∀ c ∈ root.found resolver cwd pattern, isImpossible c.absolute = false) :
    ∃ next, root.discoverPattern resolver cwd d pattern = .ok next ∧
      root.HasRead (fresh [] (cs ++ root.found resolver cwd pattern)) next := by
  rw [fresh_append, List.append_nil, ← read.seen]
  rw [Tree.discoverPattern]
  rw [found] at possible ⊢
  cases led : root.candidates resolver cwd pattern with
  | ok cs =>
    rw [led] at possible
    exact ⟨_, discoverCandidates possible d, read.reading _⟩
  | error e =>
    have added : (d.failures ++ [e]).filter DiscoveryFailure.isUnreadable =
        d.failures.filter DiscoveryFailure.isUnreadable := by
      rw [List.filter_append, List.filter_cons_of_neg (by simp [not_isUnreadable_of_candidates led])]
      exact List.append_nil _
    refine ⟨_, rfl, ?_, ?_, ?_⟩
    · exact read.files.trans (congrArg _ (List.append_nil _).symm)
    · exact added.trans (read.refusals.trans (congrArg _ (List.append_nil _).symm))
    · exact read.seen.trans (congrArg (fun taken => (taken.map Candidate.key).reverse)
        (List.append_nil _).symm)

theorem HasRead.discoverPatterns (read : root.HasRead (fresh [] cs) d)
    (possible : ∀ c ∈ root.reached resolver cwd patterns, isImpossible c.absolute = false) :
    ∃ last, patterns.foldlM (root.discoverPattern resolver cwd) d = .ok last ∧
      root.HasRead (fresh [] (cs ++ root.reached resolver cwd patterns)) last := by
  induction patterns generalizing cs d with
  | nil => exact ⟨d, rfl, by rwa [reached, List.flatMap_nil, List.append_nil]⟩
  | cons pattern patterns ih =>
    rw [reached, List.flatMap_cons, ← reached] at possible ⊢
    obtain ⟨here, others⟩ := List.forall_mem_append.mp possible
    obtain ⟨next, first, read⟩ := read.discoverPattern here
    obtain ⟨last, rest, read⟩ := ih read others
    rw [List.append_assoc] at read
    exact ⟨last, by rw [List.foldlM_cons, bind_eq_ok]; exact ⟨next, first, rest⟩, read⟩

theorem offers_of_mem_reached (proper : root.IsProper) (rooted : Path.isAbsolute cwd)
    (member : c ∈ root.reached root.resolveIncludes cwd patterns) :
    ∃ pattern ∈ patterns, root.Offers cwd pattern c := by
  obtain ⟨pattern, listed, member⟩ := List.mem_flatMap.mp member
  exact ⟨pattern, listed, offers_of_mem_found proper rooted member⟩

/-- The candidates that patterns lead to from a working directory. -/
def led (root : Tree) (cwd : Text) (patterns : List Text) : List Candidate :=
  root.reached root.resolveIncludes (Path.normalize cwd) patterns

/-- What is discovered are the first candidates of each key. -/
theorem exists_discover (proper : root.IsProper) (rooted : Path.isAbsolute cwd)
    (patterns : List Text) : ∃ d taken, root.discover root.resolveIncludes cwd patterns = .ok d ∧
      taken = fresh [] (root.led cwd patterns) ∧
      d.files = (taken.filterMap root.resource?).mergeSort
        (fun a b => Text.precedes a.file.path b.file.path) ∧
      d.failures.filter DiscoveryFailure.isUnreadable = taken.filterMap root.refusal? := by
  have rooted' := (Path.isNormal_normalize rooted).rooted
  have start : root.HasRead (fresh [] []) {} := ⟨rfl, rfl, rfl⟩
  obtain ⟨last, run, read⟩ := start.discoverPatterns fun c member => by
    obtain ⟨pattern, _, offers⟩ := offers_of_mem_reached proper rooted' member
    exact offers.file.possible
  refine ⟨_, _, bind_eq_ok.mpr ⟨last, run, rfl⟩, rfl, ?_, read.refusals⟩
  exact congrArg (List.mergeSort · _) read.files

/-- A candidate stands for a file with the extension of a datafile, and its datafile has the text of
that file. -/
structure StandsFor (root : Tree) (c : Candidate) : Prop extends root.IsFilePath c.absolute where
  kind : Path.kind? c.absolute = some c.kind
  content : ∀ f, root.resource? c = some f → ∃ octets text, root.at? c.place = some (.file octets) ∧
    Text.decode octets = .ok text ∧ f.file.content = Text.lineFeeds text

theorem readText_eq_ok {path content : Text} (read : root.readText path = .ok content) :
    ∃ octets text, root.read path = .ok octets ∧ Text.decode octets = .ok text ∧
      content = Text.lineFeeds text := by
  rw [readText] at read
  split at read
  · cases read
  split at read
  case h_1 => cases read
  case h_2 octets present =>
    split at read
    case h_1 => cases read
    case h_2 text valid => exact ⟨octets, text, present, valid, (Except.ok.inj read).symm⟩

theorem Offers.standsFor (offers : root.Offers cwd pattern c) : root.StandsFor c := by
  refine ⟨offers.file, offers.kind, fun f made => ?_⟩
  rw [resource?] at made
  split at made
  · rename_i content read
    obtain ⟨octets, text, present, valid, rfl⟩ := readText_eq_ok read
    obtain ⟨place, located, standing⟩ := read_eq_ok.mp present
    obtain ⟨rfl, -⟩ := place_of_locate offers.file.normal.rooted located
    cases made
    exact ⟨octets, text, node?_eq_file.mp standing, valid, rfl⟩
  · cases made

theorem IsFilePath.key (file : root.IsFilePath c.absolute) :
    c.key = Path.unifySlashes c.absolute := by
  rw [Candidate.key, file.normal.normal]

/-- Candidates of different keys stand for different places, or for one place by paths that begin
with one slash and with two. -/
theorem pairwise_places (file : ∀ c ∈ cs, root.IsFilePath c.absolute) :
    (fresh [] cs).Pairwise fun c c' =>
      c.place = c'.place → Path.root c.absolute ≠ Path.root c'.absolute := by
  refine (pairwise_fresh [] cs).imp_of_mem fun {c c'} member member' other same root => ?_
  have normal := (file c ((fresh_sublist [] cs).subset member)).normal
  have normal' := (file c' ((fresh_sublist [] cs).subset member')).normal
  refine other ?_
  rw [Candidate.key, normal.eq_of_names normal' root same, ← Candidate.key]

/-- No two paths are the same but for the kind of their slashes. -/
def KeysTell (cs : List Candidate) : Prop :=
  ∀ c ∈ cs, ∀ c' ∈ cs, Path.unifySlashes c.absolute = Path.unifySlashes c'.absolute →
    c.absolute = c'.absolute

instance (cs : List Candidate) : Decidable (KeysTell cs) :=
  inferInstanceAs (Decidable (∀ c ∈ cs, ∀ c' ∈ cs, _ → _))

/-- Nothing is lost among first candidates if and only if keys tell files apart. -/
theorem fresh_complete_iff (file : ∀ c ∈ cs, root.IsFilePath c.absolute) :
    (∀ c ∈ cs, ∃ e ∈ fresh [] cs, e.absolute = c.absolute) ↔ KeysTell cs := by
  have among := (fresh_sublist [] cs).subset
  constructor
  · intro complete c member c' member' same
    obtain ⟨e, taken, here⟩ := complete c member
    obtain ⟨e', taken', here'⟩ := complete c' member'
    have keys : e.key = e'.key := by
      rw [(file e (among taken)).key, (file e' (among taken')).key, here, here', same]
    have distinct : ((fresh [] cs).map Candidate.key).Nodup :=
      List.pairwise_map.mpr (pairwise_fresh [] cs)
    obtain rfl : e = e' := List.inj_on_of_nodup_map distinct taken taken' keys
    exact here.symm.trans here'
  · intro tell c member
    obtain ⟨e, taken, same⟩ := exists_mem_fresh member List.not_mem_nil
    rw [(file e (among taken)).key, (file c member).key] at same
    exact ⟨e, taken, tell e (among taken) c member same⟩

/-- Each datafile below a directory that a pattern names is reached, and each file that is reached
is one entry of the discovery, if keys tell the files apart. -/
theorem discover_once (proper : root.IsProper) (rooted : Path.isAbsolute cwd)
    (patterns : List Text) :
    ∃ d taken, root.discover root.resolveIncludes cwd patterns = .ok d ∧ root.Accounts d taken ∧
      taken.Sublist (root.led cwd patterns) ∧
      (∀ c ∈ taken, root.StandsFor c) ∧
      taken.Pairwise (fun c c' => c.place = c'.place →
        Path.root c.absolute ≠ Path.root c'.absolute) ∧
      (∀ pattern ∈ patterns, ∀ place,
        root.HasBelow (Path.absolute (Path.normalize cwd) pattern) place →
        ∃ c ∈ root.led cwd patterns, c.place = place) ∧
      ((∀ c ∈ root.led cwd patterns, ∃ e ∈ taken, e.absolute = c.absolute) ↔
        KeysTell (root.led cwd patterns)) := by
  have rooted' := (Path.isNormal_normalize rooted).rooted
  have stands : ∀ c ∈ root.led cwd patterns, root.StandsFor c := by
    intro c member
    obtain ⟨pattern, _, offers⟩ := offers_of_mem_reached proper rooted' member
    exact offers.standsFor
  have file : ∀ c ∈ root.led cwd patterns, root.IsFilePath c.absolute :=
    fun c member => (stands c member).toIsFilePath
  obtain ⟨d, taken, discovered, rfl, files, refusals⟩ := exists_discover proper rooted patterns
  have among := fresh_sublist [] (root.led cwd patterns)
  refine ⟨d, _, discovered, ⟨?_, refusals, ?_⟩, among, ?_, pairwise_places file, ?_,
    fresh_complete_iff file⟩
  · rw [files]
    exact List.mergeSort_perm _ _
  · exact fun c member => isSome_resource?_iff (file c (among.subset member)).possible
  · exact fun c member => stands c (among.subset member)
  · intro pattern listed place below
    obtain ⟨c, member, there⟩ := exists_mem_found proper rooted' below
    exact ⟨c, List.mem_flatMap.mpr ⟨pattern, listed, member⟩, there⟩

/-- Each candidate that is accounted for is one entry. -/
theorem Accounts.length_eq (accounts : root.Accounts d taken) : taken.length =
    d.files.length + (d.failures.filter DiscoveryFailure.isUnreadable).length := by
  rw [accounts.files.length_eq, accounts.refusals]
  have either := accounts.either
  clear accounts
  induction taken with
  | nil => rfl
  | cons c taken ih =>
    obtain ⟨here, others⟩ := List.forall_mem_cons.mp either
    rw [List.length_cons, ih others]
    cases read : root.resource? c with
    | some f =>
      rw [read] at here
      rw [List.filterMap_cons_some read, List.filterMap_cons_none (here.mp rfl), List.length_cons]
      omega
    | none =>
      rw [read] at here
      obtain ⟨e, refused⟩ := Option.ne_none_iff_exists'.mp (mt here.mpr Bool.false_ne_true)
      rw [List.filterMap_cons_none read, List.filterMap_cons_some refused, List.length_cons]
      omega

/-- A project in layers: a datafile, one in a directory, and one in a directory to pass over. -/
def layeredProject : Tree := .directory [("p", .directory
  [("a.datasource", .file []), ("sub", .directory [("b.pipe", .file [255])]),
    ("venv", .directory [("c.pipe", .file [])])])]

theorem isProper_layeredProject : layeredProject.IsProper := by
  have leaf {name : Text} {content : Text.Octets} (isName : Path.IsName name)
      (possible : isImpossible name = false) : IsProper (.directory [(name, .file content)]) :=
    .directory (List.forall_mem_singleton.mpr ⟨isName, possible⟩) (List.nodup_singleton _)
      (List.forall_mem_singleton.mpr (.file _))
  refine .directory (by decide) (by decide) (List.forall_mem_singleton.mpr ?_)
  refine .directory (by decide) (by decide) ?_
  exact List.forall_mem_cons.mpr ⟨.file _, List.forall_mem_cons.mpr
    ⟨leaf (by decide) (by decide), List.forall_mem_singleton.mpr (leaf (by decide) (by decide))⟩⟩

/-- Patterns that overlap lead to each file of the project in layers once. -/
theorem discover_once_layered : ∃ d taken,
    layeredProject.discover layeredProject.resolveIncludes "/p" [".", "*.datasource", "/p/sub"] =
      .ok d ∧ layeredProject.Accounts d taken ∧ d.files.length = 1 ∧ taken.length = 2 ∧
      ∃ c ∈ taken, c.place = ["p", "sub", "b.pipe"] := by
  obtain ⟨d, taken, discovered, accounts, _, _, _, reaches, complete⟩ :=
    discover_once isProper_layeredProject (by decide : Path.isAbsolute "/p")
      [".", "*.datasource", "/p/sub"]
  obtain ⟨d', discovered', counted⟩ := exists_eq_ok (p := fun d => d.files.length = 1 &&
      (d.failures.filter DiscoveryFailure.isUnreadable).length = 1)
    (x := layeredProject.discover layeredProject.resolveIncludes "/p"
      [".", "*.datasource", "/p/sub"]) (by decide +kernel)
  obtain rfl : d = d' := Except.ok.inj (discovered.symm.trans discovered')
  rw [Bool.and_eq_true, decide_eq_true_eq, decide_eq_true_eq] at counted
  have below : layeredProject.HasBelow "/p" ["p", "sub", "b.pipe"] :=
    ⟨["p"], ["sub"], "b.pipe", [255], by decide +kernel, by decide +kernel, rfl, rfl,
      by decide +kernel, by decide +kernel⟩
  obtain ⟨c, member, there⟩ := reaches "." List.mem_cons_self _ below
  obtain ⟨e, taken', same⟩ := complete.mpr (by decide +kernel) c member
  refine ⟨d, taken, discovered, accounts, counted.1, ?_, e, taken', ?_⟩
  · rw [accounts.length_eq, counted.1, counted.2]
  · rw [Candidate.place, same]
    exact there

/-- A project in which two paths are the same but for a slash. -/
def slashedProject : Tree := .directory [("a\\b.pipe", .file []),
  ("a", .directory [("b.pipe", .file [])])]

theorem isProper_slashedProject : slashedProject.IsProper := by
  refine .directory (by decide) (by decide) (List.forall_mem_cons.mpr ⟨.file _, ?_⟩)
  refine List.forall_mem_singleton.mpr (.directory (by decide) (by decide) ?_)
  exact List.forall_mem_singleton.mpr (.file _)

/-- A file whose path is that of another one but for a slash is lost. -/
theorem discover_once_slashed : ¬ ∀ (root : Tree) (cwd : Text) (patterns : List Text),
    root.IsProper → Path.isAbsolute cwd →
    ∃ d taken, root.discover root.resolveIncludes cwd patterns = .ok d ∧ root.Accounts d taken ∧
      (∀ c ∈ taken, root.StandsFor c) ∧ (taken.map Candidate.place).Nodup ∧
      ∀ pattern ∈ patterns, ∀ place,
        root.HasBelow (Path.absolute (Path.normalize cwd) pattern) place →
        ∃ c ∈ taken, c.place = place := by
  intro claimed
  obtain ⟨d, taken, discovered, accounts, _, _, complete⟩ :=
    claimed slashedProject "/" ["."] isProper_slashedProject (by decide)
  obtain ⟨d', discovered', counted⟩ := exists_eq_ok (p := fun d => d.files.length = 1 &&
      (d.failures.filter DiscoveryFailure.isUnreadable).length = 0)
    (x := slashedProject.discover slashedProject.resolveIncludes "/" ["."]) (by decide +kernel)
  obtain rfl : d = d' := Except.ok.inj (discovered.symm.trans discovered')
  rw [Bool.and_eq_true, decide_eq_true_eq, decide_eq_true_eq] at counted
  have single : taken.length = 1 := by rw [accounts.length_eq, counted.1, counted.2]
  have here : slashedProject.HasBelow "/" ["a\\b.pipe"] :=
    ⟨[], [], "a\\b.pipe", [], by decide +kernel, by decide +kernel, rfl, rfl,
      by decide +kernel, by decide +kernel⟩
  have there : slashedProject.HasBelow "/" ["a", "b.pipe"] :=
    ⟨[], ["a"], "b.pipe", [], by decide +kernel, by decide +kernel, rfl, rfl,
      by decide +kernel, by decide +kernel⟩
  obtain ⟨c, member, place⟩ := complete "." List.mem_cons_self _ here
  obtain ⟨c', member', place'⟩ := complete "." List.mem_cons_self _ there
  obtain ⟨only, rfl⟩ := List.length_eq_one_iff.mp single
  obtain rfl := List.mem_singleton.mp member
  obtain rfl := List.mem_singleton.mp member'
  cases place.symm.trans place'

end Tree

end DatafileMigration
