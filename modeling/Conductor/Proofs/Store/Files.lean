import Conductor.Store.Files

/-!
# Files of one directory

What reading, writing and removing a file of a directory do, and what making the directory does to
the tree.

* `Files.Stands` : a directory stands, with all those above it;
* `Files.stands_of_makeDirectory`, `Files.makeDirectory_of_stands` : **a directory that was made
  stands, and one that stands is made by doing nothing;**
* `Files.get?_of_makeDirectory` : nothing below the directory is touched by making it;
* `Files.read_of_write` : **what was written is read;**
* `Files.Folder` : under some names the directory holds just the texts of a table;
* `Folder.read_eq`, `Folder.write_ok`, `Folder.remove_eq` : **on such a directory reading, writing
  and removing are looking up, updating and erasing in the table, and none of them fails.**
-/

namespace Conductor

namespace Files

variable {fs fs' : Files} {above path dir names : List String} {name : String} {node : FileNode}

/-! ### Looking up -/

theorem get?_put_self (h : path ≠ []) : (fs.put path node).get? path = some node := by
  have hnone : (fs.filter fun e => e.1 ≠ path).lookup path = none := by
    rw [List.lookup_eq_none_iff]
    intro e he
    exact bne_iff_ne.2 fun heq => (by simpa using (List.mem_filter.1 he).2 : e.1 ≠ path) heq.symm
  rw [get?, if_neg (by simpa using h), put, List.lookup_append, hnone]
  simp

theorem get?_of_lookup {fs fs' : Files} (h : fs'.lookup path = fs.lookup path) :
    fs'.get? path = fs.get? path := by
  rw [get?, get?, h]

theorem lookup_filter_of_ne {path' : List String} (h : path' ≠ path) :
    (fs.filter fun e => e.1 ≠ path).lookup path' = fs.lookup path' := by
  induction fs with
  | nil => rfl
  | cons e fs ih =>
    obtain ⟨p, n⟩ := e
    by_cases hp : p = path
    · subst hp
      rw [List.filter_cons_of_neg (by simp), List.lookup_cons, beq_false_of_ne h, ih]
    · rw [List.filter_cons_of_pos (by simpa using hp), List.lookup_cons, List.lookup_cons, ih]

theorem get?_put_of_ne {path' : List String} (h : path' ≠ path) :
    (fs.put path node).get? path' = fs.get? path' := by
  refine get?_of_lookup ?_
  rw [put, List.lookup_append, lookup_filter_of_ne h, List.lookup_cons, beq_false_of_ne h]
  simp

theorem get?_filter_of_ne {path' : List String} (h : path' ≠ path) :
    get? (fs.filter fun e => e.1 ≠ path) path' = fs.get? path' :=
  get?_of_lookup (lookup_filter_of_ne h)

theorem get?_filter_self (h : path ≠ []) : get? (fs.filter fun e => e.1 ≠ path) path = none := by
  rw [get?, if_neg (by simpa using h), List.lookup_eq_none_iff]
  intro e he
  exact bne_iff_ne.2 fun heq => (by simpa using (List.mem_filter.1 he).2 : e.1 ≠ path) heq.symm

/-! ### Directories that stand -/

/-- The directory stands below `above`, with all those on the way to it. -/
def StandsBelow (fs : Files) (above names : List String) : Prop :=
  fs.unreachable? above names = none ∧ fs.get? (above ++ names) = some .directory

/-- The directory stands, with all those above it. -/
def Stands (fs : Files) (dir : List String) : Prop := fs.StandsBelow [] dir

/-- The names are not too long for the names of files. -/
def Short (names : List String) : Prop := ∀ name ∈ names, name.utf8ByteSize ≤ longestName

theorem unreachable?_cons (h : fs.get? above = some .directory)
    (hname : name.utf8ByteSize ≤ longestName) :
    fs.unreachable? above (name :: names) = fs.unreachable? (above ++ [name]) names := by
  rw [unreachable?, h]
  exact if_neg (Nat.not_lt.2 hname)

theorem get?_of_reachable (h : fs.unreachable? above (name :: names) = none) :
    fs.get? above = some .directory ∧ fs.unreachable? (above ++ [name]) names = none := by
  rw [unreachable?] at h
  split at h
  · cases h
  · cases h
  · split at h
    · cases h
    · exact ⟨‹_›, h⟩

/-- Making a directory leaves what is there, and everything that lies deeper than the directory. -/
theorem get?_of_makeBelow (h : fs.makeBelow above names = .ok fs') (p : List String) :
    (∀ n, fs.get? p = some n → fs'.get? p = some n) ∧
      ((above ++ names).length < p.length → fs'.get? p = fs.get? p) := by
  induction names generalizing fs above with
  | nil =>
    obtain rfl := Except.ok.inj h
    exact ⟨fun _ => id, fun _ => rfl⟩
  | cons name names ih =>
    rw [makeBelow] at h
    split at h
    · simpa using ih h
    · cases h
    next hnone =>
      split at h
      · cases h
      · obtain ⟨hkeep, hdeep⟩ := ih h
        have hput (hne : p ≠ above ++ [name]) :
            (fs.put (above ++ [name]) .directory).get? p = fs.get? p := get?_put_of_ne hne
        refine ⟨fun n hn => hkeep n ?_, fun hlen => ?_⟩
        · rw [hput, hn]
          rintro rfl
          rw [hnone] at hn
          cases hn
        · rw [hdeep (by simpa using hlen), hput]
          rintro rfl
          simp at hlen

theorem standsBelow_of_makeBelow (h : fs.makeBelow above names = .ok fs')
    (habove : fs.get? above = some .directory) (hshort : Short names) :
    fs'.StandsBelow above names := by
  induction names generalizing fs above with
  | nil =>
    obtain rfl := Except.ok.inj h
    exact ⟨rfl, by rwa [List.append_nil]⟩
  | cons name names ih =>
    have habove' := (get?_of_makeBelow h above).1 _ habove
    have hname : name.utf8ByteSize ≤ longestName := hshort name (List.mem_cons_self ..)
    have hrest : fs'.StandsBelow (above ++ [name]) names := by
      have hshort' : Short names := fun n hn => hshort n (List.mem_cons_of_mem _ hn)
      rw [makeBelow] at h
      split at h
      next hdir => exact ih h hdir hshort'
      · cases h
      · split at h
        · cases h
        · exact ih h (get?_put_self (by simp)) hshort'
    refine ⟨?_, by simpa using hrest.2⟩
    rw [unreachable?_cons habove' hname]
    exact hrest.1

theorem makeBelow_of_standsBelow (h : fs.StandsBelow above names) :
    fs.makeBelow above names = .ok fs := by
  induction names generalizing above with
  | nil => rfl
  | cons name names ih =>
    obtain ⟨hreach, hdir⟩ := h
    obtain ⟨-, hrest⟩ := get?_of_reachable hreach
    -- that the next directory stands is known from what lies below it, or it is the last one
    have hbelow : fs.StandsBelow (above ++ [name]) names := ⟨hrest, by simpa using hdir⟩
    have hhere : fs.get? (above ++ [name]) = some .directory := by
      cases names with
      | nil => simpa using hbelow.2
      | cons n ns => exact (get?_of_reachable hrest).1
    rw [makeBelow]
    simp only [hhere]
    exact ih hbelow

/-- **A directory that was made stands.** -/
theorem stands_of_makeDirectory (h : fs.makeDirectory dir = .ok fs') (hshort : Short dir) :
    fs'.Stands dir :=
  standsBelow_of_makeBelow h rfl hshort

/-- **A directory that stands is made by doing nothing.** -/
theorem makeDirectory_of_stands (h : fs.Stands dir) : fs.makeDirectory dir = .ok fs :=
  makeBelow_of_standsBelow h

/-- Nothing in the directory is touched by making it. -/
theorem get?_of_makeDirectory (h : fs.makeDirectory dir = .ok fs') (name : String) :
    fs'.get? (dir ++ [name]) = fs.get? (dir ++ [name]) :=
  (get?_of_makeBelow h _).2 (by simp)

/-! ### Files of a directory -/

theorem unreachable?_of_standsBelow (h : fs.StandsBelow above names)
    (hname : name.utf8ByteSize ≤ longestName) : fs.unreachable? above (names ++ [name]) = none := by
  induction names generalizing above with
  | nil =>
    have hdir : fs.get? above = some .directory := by simpa using h.2
    rw [List.nil_append, unreachable?_cons hdir hname]
    rfl
  | cons n ns ih =>
    obtain ⟨hreach, hdir⟩ := h
    rw [unreachable?] at hreach
    rw [List.cons_append, unreachable?]
    split at hreach
    · cases hreach
    · cases hreach
    · split at hreach
      · cases hreach
      next hn => rw [if_neg hn, ih ⟨hreach, by simpa using hdir⟩]

/-- A directory that can be made stands, or a file in it is not found. -/
theorem unreachable?_of_makeBelow (name : String) (h : fs.makeBelow above names = .ok fs')
    (habove : fs.get? above = some .directory) (hshort : Short names) :
    fs.StandsBelow above names ∨ fs.unreachable? above (names ++ [name]) = some .notFound := by
  induction names generalizing above with
  | nil => exact .inl ⟨rfl, by rwa [List.append_nil]⟩
  | cons n ns ih =>
    have hn : n.utf8ByteSize ≤ longestName := hshort n (List.mem_cons_self ..)
    rw [List.cons_append, StandsBelow, unreachable?_cons habove hn, unreachable?_cons habove hn]
    rw [makeBelow] at h
    split at h
    next hdir =>
      simpa [StandsBelow] using ih h hdir fun m hm => hshort m (List.mem_cons_of_mem _ hm)
    · cases h
    next hnone =>
      right
      cases ns <;> simp [unreachable?, hnone]

/-- Whether a path can be reached depends on nothing but what lies above it. -/
theorem unreachable?_congr
    (hsame : ∀ p : List String, p.length < (above ++ names).length → fs'.get? p = fs.get? p) :
    fs'.unreachable? above names = fs.unreachable? above names := by
  induction names generalizing above with
  | nil => rfl
  | cons n ns ih =>
    have hrest : fs'.unreachable? (above ++ [n]) ns = fs.unreachable? (above ++ [n]) ns :=
      ih fun p hp => hsame p (by simpa using hp)
    rw [unreachable?, unreachable?, hsame above (by simp), hrest]

/-- Whether a directory stands depends on nothing that lies deeper. -/
theorem standsBelow_congr (h : fs.StandsBelow above names)
    (hsame : ∀ p : List String, p.length ≤ (above ++ names).length → fs'.get? p = fs.get? p) :
    fs'.StandsBelow above names := by
  refine ⟨?_, (hsame _ (Nat.le_refl _)).trans h.2⟩
  rw [unreachable?_congr fun p hp => hsame p (Nat.le_of_lt hp), h.1]

/-- **What was written is read.** -/
theorem read_of_write {text : String} (h : fs.write path text = .ok fs') :
    fs'.read path = .ok text := by
  rw [write] at h
  split at h
  · cases h
  next hreach =>
    have hput (hpath : path ≠ []) : (fs.put path (.file text)).read path = .ok text := by
      have habove : (fs.put path (.file text)).unreachable? [] path = none := by
        rw [unreachable?_congr fun p hp => get?_put_of_ne ?_, hreach]
        rintro rfl
        exact Nat.lt_irrefl _ hp
      rw [read, habove, get?_put_self hpath]
    split at h
    · cases h
    next hfile =>
      obtain rfl := Except.ok.inj h
      refine hput ?_
      -- the current directory is no file
      rintro rfl
      exact hfile rfl

/-- The directory stands or can be made, and what stands under some names are just the texts of a
table. In one that does not stand there is nothing. -/
structure Folder (fs : Files) (dir : List String) (named : String → Prop)
    (texts : String → Option String) : Prop where
  short : Short dir
  makes : ∃ made, fs.makeDirectory dir = .ok made
  opened : fs.Stands dir ∨ ∀ name, named name → texts name = none
  holds : ∀ name, named name → fs.get? (dir ++ [name]) = (texts name).map .file

namespace Folder

variable {named : String → Prop} {texts : String → Option String}

theorem of_stands (hstands : fs.Stands dir) (hshort : Short dir)
    (hholds : ∀ name, named name → fs.get? (dir ++ [name]) = (texts name).map .file) :
    fs.Folder dir named texts where
  short := hshort
  makes := ⟨fs, makeDirectory_of_stands hstands⟩
  opened := .inl hstands
  holds := hholds

/-- The directory once it is made. -/
theorem made (h : fs.Folder dir named texts) (hmake : fs.makeDirectory dir = .ok fs') :
    fs'.Stands dir ∧ fs'.Folder dir named texts := by
  have hstands := stands_of_makeDirectory hmake h.short
  refine ⟨hstands, of_stands hstands h.short fun name hnamed => ?_⟩
  rw [get?_of_makeDirectory hmake, h.holds name hnamed]

/-- A directory stands on when something in it changes. -/
theorem stands_of_same (h : fs.Stands dir)
    (hsame : ∀ p, p ≠ dir ++ [name] → fs'.get? p = fs.get? p) : fs'.Stands dir := by
  refine standsBelow_congr h fun p hp => hsame p ?_
  rintro rfl
  simp only [List.nil_append, List.length_append, List.length_singleton] at hp
  omega

theorem read_eq (h : fs.Folder dir named texts) (hnamed : named name)
    (hname : name.utf8ByteSize ≤ longestName) :
    fs.read (dir ++ [name]) = match texts name with
      | some text => .ok text
      | none => .error .notFound := by
  obtain ⟨made, hmade⟩ := h.makes
  rw [read]
  rcases unreachable?_of_makeBelow name hmade rfl h.short with hstands | hmissing
  · rw [unreachable?_of_standsBelow hstands hname, h.holds name hnamed]
    cases texts name <;> rfl
  · rcases h.opened with hstands | hnone
    · rw [unreachable?_of_standsBelow hstands hname] at hmissing
      cases hmissing
    · rw [hmissing, hnone name hnamed]

theorem write_ok (h : fs.Folder dir named texts) (hnamed : named name)
    (hname : name.utf8ByteSize ≤ longestName) (text : String) :
    ∃ made written, fs.makeDirectory dir = .ok made ∧
      made.write (dir ++ [name]) text = .ok written ∧
      written.Folder dir named (fun other => if name = other then some text else texts other) := by
  obtain ⟨made, hmade⟩ := h.makes
  obtain ⟨hstands, hfolder⟩ := h.made hmade
  refine ⟨made, made.put (dir ++ [name]) (.file text), hmade, ?_, ?_⟩
  · rw [write, unreachable?_of_standsBelow hstands hname, hfolder.holds name hnamed]
    cases texts name <;> rfl
  · refine of_stands (stands_of_same hstands fun p => get?_put_of_ne) h.short fun other hother => ?_
    split
    next heq =>
      subst heq
      exact get?_put_self (by simp)
    next hne => rw [get?_put_of_ne (by simpa using Ne.symm hne), hfolder.holds other hother]

theorem remove_eq (h : fs.Folder dir named texts) (hnamed : named name)
    (hname : name.utf8ByteSize ≤ longestName) :
    (texts name = none ∧ fs.remove (dir ++ [name]) = .error .notFound) ∨
      ∃ left, fs.remove (dir ++ [name]) = .ok left ∧
        left.Folder dir named (fun other => if name = other then none else texts other) := by
  cases hthere : texts name with
  | none =>
    refine .inl ⟨rfl, ?_⟩
    -- a file that is not there is missed in the same way when it is read
    have hread := h.read_eq hnamed hname
    rw [hthere, read] at hread
    rw [remove]
    split at hread
    · rw [Except.error.inj hread]
    · rw [h.holds name hnamed, hthere]
      rfl
  | some text =>
    have hstands := h.opened.resolve_right fun hnone => by
      rw [hnone name hnamed] at hthere
      cases hthere
    refine .inr ⟨fs.filter fun e => e.1 ≠ dir ++ [name], ?_, ?_⟩
    · rw [remove, unreachable?_of_standsBelow hstands hname, h.holds name hnamed, hthere]
      rfl
    · refine of_stands (stands_of_same hstands fun p => get?_filter_of_ne) h.short
        fun other hother => ?_
      split
      next heq =>
        subst heq
        exact get?_filter_self (by simp)
      next hne => rw [get?_filter_of_ne (by simpa using Ne.symm hne), h.holds other hother]

end Folder

end Files

end Conductor
