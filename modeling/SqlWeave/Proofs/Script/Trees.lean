import SqlWeave.Proofs.Script.Causes

/-!
# What covered tokens are read as

The reader stops at the first token that fits nowhere.  From covered tokens it reads covered terms
and nodes, and what it stops for is covered: a malformed token is one of the tokens, and every
other fault is one of the template.

## Main results

* `Reader.covers_term`: terms.
* `Reader.coversAll`: nodes and their parts, with any fuel.
* `covers_readSource`: the source of a covered script.
-/

namespace SqlWeave

/-- A value that a script can put out.  The fault of an integer that cannot be written is
covered. -/
def Value.IsScalar (blame : Fault → Prop) : Value → Prop
  | .null | .bool _ | .str _ | .float (.finite ..) => True
  | .int n => Number.isWritable n = true ∨ blame .unwritableInteger
  | _ => False

namespace Script

open Text Number Template

/-- The faults of the term are covered: its value can be put out, or it is beyond all finite
floats, and so are the faults of the names of its path. -/
def Term.IsCovered (blame : Fault → Prop) : Term → Prop
  | .value v =>
    v.IsScalar blame ∨ (∃ negative, v = .float (.infinite negative)) ∧ blame (.unboundName "inf")
  | .variable _ => True
  | .lookup _ segments => ∀ s ∈ segments, ∀ f, SegmentProvokes s f → blame f

mutual

/-- The faults of all terms in the node are covered. -/
def Node.IsCovered (blame : Fault → Prop) : Node → Prop
  | .text _ => True
  | .output _ t => t.IsCovered blame
  | .choice _ t body other =>
    t.IsCovered blame ∧ AllCovered blame body ∧ AllCovered blame other
  | .loop _ t body other => t.IsCovered blame ∧ AllCovered blame body ∧ AllCovered blame other
  | .bound _ t body => t.IsCovered blame ∧ AllCovered blame body

/-- The faults of all terms in the nodes are covered. -/
def AllCovered (blame : Fault → Prop) : List Node → Prop
  | [] => True
  | n :: rest => n.IsCovered blame ∧ AllCovered blame rest

end

/-- A malformed token is covered. -/
def TokenFault.IsCovered (blame : Fault → Prop) (fault : TokenFault) : Prop :=
  ∀ f, (Token.malformed fault).Provokes f → blame f

theorem TokenFault.isCovered_script {blame : Fault → Prop} (cause : ScriptFault) :
    IsCovered blame (.script cause) :=
  nofun

/-- What is read has the postcondition and leaves covered tokens; a fault is covered. -/
def Covers {α : Type} (blame : Fault → Prop) (post : α → Prop)
    (r : Except TokenFault (α × List Token)) : Prop :=
  Yields (fun p => post p.1 ∧ AreCovered blame p.2) (TokenFault.IsCovered blame) r

namespace Reader

section Terms

variable {blame : Fault → Prop} {ts : List Token}

theorem yields_unexpected {α : Type} {post : α → Prop} (expected : String)
    (h : AreCovered blame ts) :
    Yields post (TokenFault.IsCovered blame) (unexpected expected ts) := by
  cases ts with
  | nil => exact TokenFault.isCovered_script _
  | cons t rest =>
    cases t with
    | malformed fault => exact (h.tokens _ List.mem_cons_self).2
    | _ => exact TokenFault.isCovered_script _

theorem yields_expect (t : Token) (called : String) (h : AreCovered blame ts) :
    Yields (AreCovered blame) (TokenFault.IsCovered blame) (expect t called ts) := by
  cases ts with
  | nil => exact yields_unexpected called h
  | cons u rest =>
    rw [expect]
    split
    · exact h.tail
    · exact yields_unexpected called h

theorem covers_anyName (h : AreCovered blame ts) : Covers blame (fun _ => True) (anyName ts) := by
  unfold anyName
  split
  · exact ⟨trivial, h.tail⟩
  · exact yields_unexpected "name" h

theorem covers_segments (h : AreCovered blame ts) :
    Covers blame (fun segs => ∀ s ∈ segs, ∀ f, SegmentProvokes s f → blame f) (segments ts) := by
  induction ts using segments.induct with
  | case1 s rest ih =>
    refine (ih h.tail.tail).bind fun p hp => ⟨?_, hp.2⟩
    intro segment hMem
    rcases List.mem_cons.mp hMem with rfl | hMem
    · exact (List.isChain_cons_cons.mp h.segments).1 rfl _ rfl
    · exact hp.1 segment hMem
  | case2 rest => exact ⟨fun s hMem => absurd hMem List.not_mem_nil, h.tail⟩
  | case3 ts hComma hClose =>
    rw [segments.eq_def]
    split
    · exact absurd rfl (hComma _ _)
    · exact absurd rfl (hClose _)
    · exact yields_unexpected "," h

theorem covers_namesUntilIn (h : AreCovered blame ts) :
    Covers blame (fun _ => True) (namesUntilIn ts) := by
  induction ts using namesUntilIn.induct with
  | case1 s rest ih => exact (ih h.tail.tail).bind fun p hp => ⟨trivial, hp.2⟩
  | case2 rest => exact ⟨trivial, h.tail⟩
  | case3 s rest hName =>
    rw [namesUntilIn, if_neg hName]
    exact yields_unexpected "in" h
  | case4 ts hComma hName =>
    rw [namesUntilIn.eq_def]
    split
    · exact absurd rfl (hComma _ _)
    · exact absurd rfl (hName _ _)
    · exact yields_unexpected "in" h

theorem isCovered_float {x : Binary64} (h : (Token.float x).IsCovered blame) :
    (Term.value (.float x)).IsCovered blame := by
  cases x with
  | finite negative m q => exact .inl trivial
  | infinite negative => exact .inr ⟨⟨negative, rfl⟩, h.2 _ (.infinite negative)⟩
  | nan => cases h.1

theorem covers_numeral (h : AreCovered blame ts) :
    Covers blame (fun v => (Term.value v).IsCovered blame) (numeral ts) := by
  unfold numeral
  split
  · exact ⟨.inl (.inl (h.tokens _ List.mem_cons_self).1), h.tail⟩
  · exact ⟨isCovered_float (h.tokens _ List.mem_cons_self), h.tail⟩
  · exact yields_unexpected "integer" h

theorem isCovered_negated {v : Value} (h : (Term.value v).IsCovered blame) :
    (Term.value (negated v)).IsCovered blame := by
  rcases h with hScalar | ⟨⟨negative, rfl⟩, hBlame⟩
  · cases v with
    | int n => exact .inl (hScalar.imp_left (isWritable_neg n).trans)
    | float x =>
      cases x with
      | finite negative m q => exact .inl trivial
      | _ => exact absurd hScalar id
    | _ => exact .inl hScalar
  · exact .inr ⟨⟨!negative, rfl⟩, hBlame⟩

theorem isCovered_constant {s : List Char} {v : Value} (h : constant? s = some v) :
    (Term.value v).IsCovered blame := by
  unfold constant? at h
  split at h
  · cases h
    exact .inl trivial
  · split at h
    · cases h
      exact .inl trivial
    · split at h
      · cases h
        exact .inl trivial
      · cases h

theorem covers_term (h : AreCovered blame ts) :
    Covers blame (Term.IsCovered blame) (term ts) := by
  unfold term
  split
  · exact ⟨.inl trivial, h.tail⟩
  · exact (covers_numeral h.tail).bind fun p hp => ⟨isCovered_negated hp.1, hp.2⟩
  · split
    · next hConstant => exact ⟨isCovered_constant hConstant, h.tail⟩
    · split
      · refine (yields_expect (.symbol '(') _ h.tail).bind fun rest hRest => ?_
        refine (covers_anyName hRest).bind fun p hp => ?_
        exact (covers_segments hp.2).bind fun q hq => ⟨hq.1, hq.2⟩
      · exact ⟨trivial, h.tail⟩
  · exact (covers_numeral h).bind fun p hp => ⟨hp.1, hp.2⟩

theorem covers_argument (h : AreCovered blame ts) :
    Covers blame (Term.IsCovered blame) (argument ts) := by
  refine (yields_expect (.symbol '(') _ h).bind fun rest hRest => ?_
  refine (covers_term hRest).bind fun p hp => ?_
  exact (yields_expect (.symbol ')') _ hp.2).bind fun rest hRest => ⟨hp.1, hRest⟩

theorem covers_call (function : String) (h : AreCovered blame ts) :
    Covers blame (Term.IsCovered blame) (call function ts) :=
  (yields_expect _ _ h).bind fun _ hRest => covers_argument hRest

theorem covers_output (h : AreCovered blame ts) :
    Covers blame (Node.IsCovered blame) (output ts) := by
  have hClose : ∀ {node us}, Node.IsCovered blame node → AreCovered blame us →
      Covers blame (Node.IsCovered blame) (expect .endOutput "end of print statement" us >>=
        fun rest => pure (node, rest)) :=
    fun hNode hTokens => (yields_expect _ _ hTokens).bind fun rest hRest => ⟨hNode, hRest⟩
  unfold output
  dsimp only
  split
  · split
    · refine (yields_expect (.symbol '[') _ h.tail).bind fun rest hRest => ?_
      split
      · refine (yields_expect (.symbol ']') _ hRest.tail).bind fun rest hRest => ?_
        exact hClose trivial hRest
      · exact Yields.bind (yields_unexpected "integer" hRest : Covers blame (Node.IsCovered blame) _)
          fun p hp => hClose hp.1 hp.2
    · split
      · exact (covers_argument h.tail).bind fun p hp => hClose hp.1 hp.2
      · split
        · exact (covers_argument h.tail).bind fun p hp => hClose hp.1 hp.2
        · exact (covers_term h).bind fun p hp => hClose hp.1 hp.2
  · exact (covers_term h).bind fun p hp => hClose hp.1 hp.2

end Terms

/-! ## Nodes -/

section Nodes

variable {blame : Fault → Prop} {ts : List Token}

theorem areCovered_partEnd {mark : List Char} {rest : List Token} (h : AreCovered blame ts)
    (hEnd : partEnd? ts = some (mark, rest)) : AreCovered blame rest := by
  unfold partEnd? at hEnd
  split at hEnd
  · split at hEnd
    · cases hEnd
      exact h.tail.tail.tail
    · cases hEnd
  · cases hEnd

/-- What is read with some fuel left is covered, whichever part of a script it is. -/
structure CoversAll (blame : Fault → Prop) (fuel : Nat) : Prop where
  nodes : ∀ {ts}, AreCovered blame ts → Covers blame (AllCovered blame) (Reader.nodes ts fuel)
  part : ∀ marks {ts}, AreCovered blame ts →
    Covers blame (fun p => AllCovered blame p.1) (Reader.part marks ts fuel)
  parts : ∀ mark {ts}, AreCovered blame ts →
    Covers blame (fun p => AllCovered blame p.1 ∧ AllCovered blame p.2)
      (Reader.parts mark ts fuel)
  statement : ∀ {ts}, AreCovered blame ts →
    Covers blame (Node.IsCovered blame) (Reader.statement ts fuel)

section Steps

variable {fuel : Nat} (hAll : CoversAll blame fuel)

include hAll

theorem covers_part (marks : List String) (h : AreCovered blame ts) :
    Covers blame (fun p => AllCovered blame p.1) (part marks ts (fuel + 1)) := by
  rw [part]
  refine (hAll.nodes h).bind fun p hp => ?_
  dsimp only
  split
  · next mark rest hEnd =>
    split
    · exact ⟨hp.1, areCovered_partEnd hp.2 hEnd⟩
    · exact yields_unexpected _ hp.2
  · exact yields_unexpected _ hp.2

theorem covers_parts (mark : String) (h : AreCovered blame ts) :
    Covers blame (fun p => AllCovered blame p.1 ∧ AllCovered blame p.2)
      (parts mark ts (fuel + 1)) := by
  rw [parts]
  refine (hAll.part _ h).bind fun p hp => ?_
  dsimp only
  split
  · exact (hAll.part _ hp.2).bind fun q hq => ⟨⟨hp.1, hq.1⟩, hq.2⟩
  · exact ⟨⟨hp.1, trivial⟩, hp.2⟩

/-- A statement that chooses between two parts. -/
theorem covers_choice (expected : Bool) (h : AreCovered blame ts) :
    Covers blame (Node.IsCovered blame) (do
      let (t, ts) ← call "_truthy" ts
      let ts ← endStatement ts
      let ((body, other), ts) ← parts "endif" ts fuel
      return (.choice expected t body other, ts)) := by
  refine (covers_call "_truthy" h).bind fun p hp => ?_
  refine (yields_expect .endStatement _ hp.2).bind fun rest hRest => ?_
  exact (hAll.parts "endif" hRest).bind fun q hq => ⟨⟨hp.1, hq.1⟩, hq.2⟩

theorem covers_statement (h : AreCovered blame ts) :
    Covers blame (Node.IsCovered blame) (statement ts (fuel + 1)) := by
  rw [statement]
  refine (covers_anyName h).bind fun p hp => ?_
  dsimp only
  split
  · split
    · next s rest hRest =>
      have hTail : AreCovered blame rest := by
        have hTokens := hp.2
        rw [hRest] at hTokens
        exact hTokens.tail
      split
      · exact covers_choice hAll false hTail
      · exact covers_choice hAll true hp.2
    · exact covers_choice hAll true hp.2
  · split
    · refine (covers_anyName hp.2).bind fun q hq => ?_
      refine (covers_namesUntilIn hq.2).bind fun names hNames => ?_
      refine (covers_call "_iterate" hNames.2).bind fun t ht => ?_
      refine (yields_expect .endStatement _ ht.2).bind fun rest hRest => ?_
      exact (hAll.parts "endfor" hRest).bind fun r hr => ⟨⟨ht.1, hr.1⟩, hr.2⟩
    · split
      · refine (yields_expect (.symbol '(') _ hp.2).bind fun rest hRest => ?_
        refine (covers_anyName hRest).bind fun q hq => ?_
        refine (yields_expect (.symbol ')') _ hq.2).bind fun rest hRest => ?_
        refine (covers_call "_sql" hRest).bind fun t ht => ?_
        refine (yields_expect .endStatement _ ht.2).bind fun rest hRest => ?_
        exact (hAll.part _ hRest).bind fun r hr => ⟨⟨ht.1, hr.1⟩, hr.2⟩
      · exact TokenFault.isCovered_script _

/-- A node and those behind it. -/
theorem covers_more {r : Except TokenFault (Node × List Token)}
    (h : Covers blame (Node.IsCovered blame) r) : Covers blame (AllCovered blame) (do
      let (node, rest) ← r
      let (more, rest) ← nodes rest fuel
      return (node :: more, rest)) := by
  refine h.bind fun p hp => ?_
  exact (hAll.nodes hp.2).bind fun q hq => ⟨⟨hp.1, hq.1⟩, hq.2⟩

theorem covers_nodes (h : AreCovered blame ts) :
    Covers blame (AllCovered blame) (nodes ts (fuel + 1)) := by
  rw [nodes.eq_def]
  dsimp only
  split
  · exact ⟨trivial, h⟩
  · exact covers_more hAll (covers_output h.tail)
  · split
    · exact ⟨trivial, h⟩
    · exact covers_more hAll (hAll.statement h.tail)
  · exact yields_unexpected _ h

end Steps

/-- The readers of nodes, parts and statements call one another, each time with less fuel. -/
theorem coversAll (blame : Fault → Prop) (fuel : Nat) : CoversAll blame fuel := by
  induction fuel with
  | zero =>
    exact ⟨yields_unexpected _, fun _ => yields_unexpected _, fun _ => yields_unexpected _,
      yields_unexpected _⟩
  | succ fuel ih =>
    exact ⟨covers_nodes ih, fun marks => covers_part ih marks, fun mark => covers_parts ih mark,
      covers_statement ih⟩

theorem covers_script (h : AreCovered blame ts) :
    Yields (AllCovered blame) (TokenFault.IsCovered blame) (script ts) := by
  refine ((coversAll blame _).nodes h).bind fun p hp => ?_
  dsimp only
  split
  · exact hp.1
  · exact yields_unexpected _ hp.2

end Nodes

end Reader

/-- The source of a covered script is read as a covered tree, or not for a covered fault. -/
theorem covers_readSource {blame : Fault → Prop} {is : List Instruction}
    (h : ∀ i ∈ is, i.IsCovered blame) :
    Yields (AllCovered blame) (TokenFault.IsCovered blame) (readSource (source is)) :=
  Reader.covers_script (areCovered_tokens h)

end Script

end SqlWeave
