import CsmsPlatform.Framework.Json.Token

/-!
# JSON values

The reader takes any JSON text, white space included; the writer is the compact form. A member of an
object is read together with the characters its value was written in.
-/

namespace Json

inductive Value where
  | null
  | bool (b : Bool)
  | number (n : Number)
  | string (ps : List Piece)
  | array (items : List Value)
  | object (members : List (List Piece × Value))

structure Member where
  key : List Piece
  raw : List Char
  value : Value

def stringLiteral (ps : List Piece) : List Char := '\x22'::(stringText ps ++ ['\x22'])

mutual

def render : Value → List Char
  | .null => ['n','u','l','l']
  | .bool true => ['t','r','u','e']
  | .bool false => ['f','a','l','s','e']
  | .number n => n.text
  | .string ps => stringLiteral ps
  | .array [] => ['[',']']
  | .array (x::xs) => '['::(render x ++ renderItems xs)
  | .object [] => ['\x7b','\x7d']
  | .object ((k,v)::ms) => '\x7b'::(stringLiteral k ++ ':'::(render v ++ renderMembers ms))

def renderItems : List Value → List Char
  | [] => [']']
  | x::xs => ','::(render x ++ renderItems xs)

def renderMembers : List (List Piece × Value) → List Char
  | [] => ['\x7d']
  | (k,v)::ms => ','::(stringLiteral k ++ ':'::(render v ++ renderMembers ms))

end

def isSpace (c : Char) : Bool := c = ' ' || c = '\t' || c = '\n' || c = '\r'

def skipSpace (input : List Char) : List Char := input.dropWhile isSpace

mutual

def parseValue : Nat → List Char → Option (Value × List Char)
  | 0, _ => none
  | fuel+1, input =>
    match skipSpace input with
    | '\x22'::rest => (scanString rest).map fun (ps,r) => (.string ps,r)
    | '['::rest =>
      match skipSpace rest with
      | ']'::rest => some (.array [],rest)
      | rest => do
        let (x,rest) ← parseValue fuel rest
        let (xs,rest) ← parseItems fuel rest
        return (.array (x::xs),rest)
    | '\x7b'::rest =>
      match skipSpace rest with
      | '\x7d'::rest => some (.object [],rest)
      | rest => do
        let (m,rest) ← parseMember fuel rest
        let (ms,rest) ← parseMembers fuel rest
        return (.object ((m::ms).map fun m => (m.key,m.value)),rest)
    | 'n' :: 'u' :: 'l' :: 'l' :: rest => some (.null,rest)
    | 't' :: 'r' :: 'u' :: 'e' :: rest => some (.bool true,rest)
    | 'f' :: 'a' :: 'l' :: 's' :: 'e' :: rest => some (.bool false,rest)
    | rest => (scanNumber rest).map fun (n,r) => (.number n,r)

def parseItems : Nat → List Char → Option (List Value × List Char)
  | 0, _ => none
  | fuel+1, input =>
    match skipSpace input with
    | ']'::rest => some ([],rest)
    | ','::rest => do
      let (x,rest) ← parseValue fuel rest
      let (xs,rest) ← parseItems fuel rest
      return (x::xs,rest)
    | _ => none

def parseMember : Nat → List Char → Option (Member × List Char)
  | 0, _ => none
  | fuel+1, input =>
    match skipSpace input with
    | '\x22'::rest => do
      let (key,rest) ← scanString rest
      match skipSpace rest with
      | ':'::rest => do
        let rest := skipSpace rest
        let (value,rest') ← parseValue fuel rest
        return (⟨key,rest.take (rest.length-rest'.length),value⟩,rest')
      | _ => none
    | _ => none

def parseMembers : Nat → List Char → Option (List Member × List Char)
  | 0, _ => none
  | fuel+1, input =>
    match skipSpace input with
    | '\x7d'::rest => some ([],rest)
    | ','::rest => do
      let (m,rest) ← parseMember fuel rest
      let (ms,rest) ← parseMembers fuel rest
      return (m::ms,rest)
    | _ => none

end

def parse (text : List Char) : Option Value :=
  match parseValue (text.length+1) text with
  | some (v,rest) => if skipSpace rest = [] then some v else none
  | none => none

def parseObject (text : List Char) : Option (List Member) :=
  match skipSpace text with
  | '\x7b'::rest =>
    match skipSpace rest with
    | '\x7d'::rest => if skipSpace rest = [] then some [] else none
    | rest =>
      match parseMember (text.length+1) rest with
      | none => none
      | some (m,rest) =>
        match parseMembers (text.length+1) rest with
        | none => none
        | some (ms,rest) => if skipSpace rest = [] then some (m::ms) else none
  | _ => none

mutual

def Value.Formed : Value → Prop
  | .null => True
  | .bool _ => True
  | .number n => n.Formed
  | .string ps => ∀ p ∈ ps, p.Formed
  | .array items => FormedItems items
  | .object members => FormedMembers members

def FormedItems : List Value → Prop
  | [] => True
  | x::xs => x.Formed ∧ FormedItems xs

def FormedMembers : List (List Piece × Value) → Prop
  | [] => True
  | (k,v)::ms => (∀ p ∈ k, p.Formed) ∧ v.Formed ∧ FormedMembers ms

end

mutual

/-- The recursion depth a value's text needs. -/
def cost : Value → Nat
  | .array (x::xs) => 1+(cost x+costItems xs)
  | .object ((_,v)::ms) => 2+(cost v+costMembers ms)
  | _ => 1

def costItems : List Value → Nat
  | [] => 1
  | x::xs => 1+(cost x+costItems xs)

def costMembers : List (List Piece × Value) → Nat
  | [] => 1
  | (_,v)::ms => 2+(cost v+costMembers ms)

end

theorem skipSpace_cons {c : Char} (h : isSpace c = false) (cs : List Char) :
    skipSpace (c::cs) = c::cs := by
  simp [skipSpace,h]

def Starts (c : Char) : Prop :=
  c = 'n' ∨ c = 't' ∨ c = 'f' ∨ c = '\x22' ∨ c = '[' ∨ c = '\x7b' ∨ c = '-' ∨ c.isDigit = true

theorem Starts.ne {c : Char} (h : Starts c) : isSpace c = false ∧ c ≠ ']' ∧ c ≠ '\x7d' := by
  rcases h with rfl | rfl | rfl | rfl | rfl | rfl | rfl | h
  any_goals decide
  refine ⟨?_,?_,?_⟩
  · by_contra hs
    simp only [isSpace,Bool.or_eq_true,decide_eq_true_eq,Bool.not_eq_false] at hs
    rcases hs with ((rfl | rfl) | rfl) | rfl <;> exact absurd h (by decide)
  · intro he
    subst he
    exact absurd h (by decide)
  · intro he
    subst he
    exact absurd h (by decide)

theorem number_starts {n : Number} (hn : n.Formed) :
    ∃ c cs, n.text = c::cs ∧ (c = '-' ∨ c.isDigit = true) := by
  unfold Number.text
  cases n.negative with
  | true => exact ⟨'-',_,rfl,.inl rfl⟩
  | false =>
    rcases hn.whole with hw | ⟨c,cs,hw,_,hall⟩
    · rw [hw]
      exact ⟨'0',_,rfl,.inr rfl⟩
    · rw [hw]
      simp only [List.all_cons,Bool.and_eq_true] at hall
      exact ⟨c,_,rfl,.inr hall.1⟩

theorem render_starts (v : Value) (hv : v.Formed) : ∃ c cs, render v = c::cs ∧ Starts c := by
  cases v with
  | null => exact ⟨'n',_,rfl,.inl rfl⟩
  | bool b =>
    cases b with
    | true => exact ⟨'t',_,rfl,by simp [Starts]⟩
    | false => exact ⟨'f',_,rfl,by simp [Starts]⟩
  | number n =>
    obtain ⟨c,cs,hc,hd⟩ := number_starts (n := n) hv
    exact ⟨c,cs,hc,by rcases hd with hd | hd <;> simp [Starts,hd]⟩
  | string ps => exact ⟨'\x22',_,rfl,by simp [Starts]⟩
  | array items =>
    cases items with
    | nil => exact ⟨'[',_,rfl,by simp [Starts]⟩
    | cons x xs => exact ⟨'[',_,rfl,by simp [Starts]⟩
  | object members =>
    cases members with
    | nil => exact ⟨'\x7b',_,rfl,by simp [Starts]⟩
    | cons m ms => exact ⟨'\x7b',_,rfl,by simp [Starts]⟩

theorem skipSpace_render (v : Value) (hv : v.Formed) (rest : List Char) :
    skipSpace (render v ++ rest) = render v ++ rest := by
  obtain ⟨c,cs,hc,hs⟩ := render_starts v hv
  rw [hc,List.cons_append,skipSpace_cons hs.ne.1]

theorem parseValue_number {n : Number} (hn : n.Formed) (fuel : Nat) {rest : List Char}
    (hr : Stops rest) : parseValue (fuel+1) (n.text ++ rest) = some (.number n,rest) := by
  obtain ⟨c,cs,hc,hd⟩ := number_starts hn
  have hskip := skipSpace_render (.number n) hn rest
  simp only [render] at hskip
  have hscan := scanNumber_text hn hr
  have hne (x : Char) (hx : x ≠ '-' ∧ x.isDigit = false) : c ≠ x := by
    intro he
    subst he
    rcases hd with hd | hd
    · exact hx.1 hd
    · rw [hx.2] at hd
      cases hd
  rw [parseValue,hskip,hc,List.cons_append]
  rw [hc,List.cons_append] at hscan
  split
  · next h => exact absurd (List.cons.inj h).1 (hne '\x22' (by decide))
  · next h => exact absurd (List.cons.inj h).1 (hne '[' (by decide))
  · next h => exact absurd (List.cons.inj h).1 (hne '\x7b' (by decide))
  · next h => exact absurd (List.cons.inj h).1 (hne 'n' (by decide))
  · next h => exact absurd (List.cons.inj h).1 (hne 't' (by decide))
  · next h => exact absurd (List.cons.inj h).1 (hne 'f' (by decide))
  · rw [hscan]
    rfl

theorem stops_items (xs : List Value) (rest : List Char) : Stops (renderItems xs ++ rest) := by
  intro c hc
  cases xs with
  | nil =>
    cases hc
    decide
  | cons x xs =>
    cases hc
    decide

theorem stops_members (ms : List (List Piece × Value)) (rest : List Char) :
    Stops (renderMembers ms ++ rest) := by
  intro c hc
  cases ms with
  | nil =>
    cases hc
    decide
  | cons m ms =>
    cases hc
    decide

def writtenMember (m : List Piece × Value) : Member := ⟨m.1,render m.2,m.2⟩

theorem parseMember_render {k : List Piece} {v : Value} (hk : ∀ p ∈ k, p.Formed) (hv : v.Formed)
    {fuel : Nat} {rest : List Char} (h : parseValue fuel (render v ++ rest) = some (v,rest)) :
    parseMember (fuel+1) (stringLiteral k ++ ':'::(render v ++ rest)) =
      some (writtenMember (k,v),rest) := by
  have hkey : stringLiteral k ++ ':'::(render v ++ rest) =
      '\x22'::(stringText k ++ '\x22'::(':'::(render v ++ rest))) := by
    simp [stringLiteral]
  have hlen : (render v ++ rest).take ((render v ++ rest).length-rest.length) = render v := by
    simp
  rw [hkey,parseMember,skipSpace_cons (by decide)]
  simp only [scanString_text k hk,Option.bind_eq_bind,Option.bind_some,
    skipSpace_cons (show isSpace ':' = false by decide),skipSpace_render v hv,h,hlen,Option.pure_def]
  rfl

mutual

theorem parseValue_render (v : Value) (hv : v.Formed) (fuel : Nat) (hf : cost v ≤ fuel)
    (rest : List Char) (hr : Stops rest) : parseValue fuel (render v ++ rest) = some (v,rest) := by
  match fuel,v with
  | 0, .null => simp [cost] at hf
  | 0, .bool _ => simp [cost] at hf
  | 0, .number _ => simp [cost] at hf
  | 0, .string _ => simp [cost] at hf
  | 0, .array [] => simp [cost] at hf
  | 0, .array (_::_) => simp [cost] at hf
  | 0, .object [] => simp [cost] at hf
  | 0, .object (_::_) => simp [cost] at hf
  | fuel+1, .null => rfl
  | fuel+1, .bool true => rfl
  | fuel+1, .bool false => rfl
  | fuel+1, .number n => exact parseValue_number hv fuel hr
  | fuel+1, .string ps =>
    have htext : render (.string ps) ++ rest = '\x22'::(stringText ps ++ '\x22'::rest) := by
      simp [render,stringLiteral]
    rw [htext,parseValue,skipSpace_cons (by decide)]
    simp only [scanString_text ps hv]
    rfl
  | fuel+1, .array [] => rfl
  | fuel+1, .array (x::xs) =>
    simp only [cost] at hf
    have hx := parseValue_render x hv.1 fuel (by omega) (renderItems xs ++ rest) (stops_items xs rest)
    have hxs := parseItems_render xs hv.2 fuel (by omega) rest
    obtain ⟨c,cs,hc,hs⟩ := render_starts x hv.1
    have htext : render (.array (x::xs)) ++ rest = '['::(render x ++ (renderItems xs ++ rest)) := by
      simp [render]
    rw [htext,parseValue,skipSpace_cons (by decide)]
    simp only [skipSpace_render x hv.1]
    split
    · next h =>
      rw [hc] at h
      exact absurd (List.cons.inj h).1 hs.ne.2.1
    · simp only [hx,hxs,Option.bind_eq_bind,Option.bind_some,Option.pure_def]
  | fuel+1, .object [] => rfl
  | fuel+1, .object ((k,v)::ms) =>
    simp only [cost] at hf
    obtain ⟨hk,hv,hms⟩ := hv
    obtain ⟨fuel,rfl⟩ : ∃ n, fuel = n+1 := ⟨fuel-1,by omega⟩
    have hvalue := parseValue_render v hv fuel (by omega) (renderMembers ms ++ rest)
      (stops_members ms rest)
    have hmember := parseMember_render hk hv hvalue
    have hrest := parseMembers_render ms hms (fuel+1) (by omega) rest
    have htext : render (.object ((k,v)::ms)) ++ rest =
        '\x7b'::(stringLiteral k ++ ':'::(render v ++ (renderMembers ms ++ rest))) := by
      simp [render]
    have hkey : skipSpace (stringLiteral k ++ ':'::(render v ++ (renderMembers ms ++ rest))) =
        stringLiteral k ++ ':'::(render v ++ (renderMembers ms ++ rest)) :=
      skipSpace_cons (by decide) _
    rw [htext,parseValue,skipSpace_cons (by decide)]
    simp only [hkey]
    split
    · next h => exact absurd (List.cons.inj h).1 (by decide)
    · simp only [hmember,hrest,Option.bind_eq_bind,Option.bind_some,Option.pure_def]
      simp [writtenMember,Function.comp_def]

theorem parseItems_render (xs : List Value) (hx : FormedItems xs) (fuel : Nat)
    (hf : costItems xs ≤ fuel) (rest : List Char) :
    parseItems fuel (renderItems xs ++ rest) = some (xs,rest) := by
  match fuel,xs with
  | 0, [] => simp [costItems] at hf
  | 0, _::_ => simp [costItems] at hf
  | fuel+1, [] => rfl
  | fuel+1, x::xs =>
    simp only [costItems] at hf
    have hhead := parseValue_render x hx.1 fuel (by omega) (renderItems xs ++ rest)
      (stops_items xs rest)
    have htail := parseItems_render xs hx.2 fuel (by omega) rest
    have htext : renderItems (x::xs) ++ rest = ','::(render x ++ (renderItems xs ++ rest)) := by
      simp [renderItems]
    rw [htext,parseItems,skipSpace_cons (by decide)]
    simp only [hhead,htail,Option.bind_eq_bind,Option.bind_some,Option.pure_def]

theorem parseMembers_render (ms : List (List Piece × Value)) (hm : FormedMembers ms) (fuel : Nat)
    (hf : costMembers ms ≤ fuel) (rest : List Char) :
    parseMembers fuel (renderMembers ms ++ rest) = some (ms.map writtenMember,rest) := by
  match fuel,ms with
  | 0, [] => simp [costMembers] at hf
  | 0, _::_ => simp [costMembers] at hf
  | fuel+1, [] => rfl
  | fuel+1, (k,v)::ms =>
    simp only [costMembers] at hf
    obtain ⟨hk,hv,hms⟩ := hm
    obtain ⟨fuel,rfl⟩ : ∃ n, fuel = n+1 := ⟨fuel-1,by omega⟩
    have hvalue := parseValue_render v hv fuel (by omega) (renderMembers ms ++ rest)
      (stops_members ms rest)
    have hmember := parseMember_render hk hv hvalue
    have htail := parseMembers_render ms hms (fuel+1) (by omega) rest
    have htext : renderMembers ((k,v)::ms) ++ rest =
        ','::(stringLiteral k ++ ':'::(render v ++ (renderMembers ms ++ rest))) := by
      simp [renderMembers]
    rw [htext,parseMembers,skipSpace_cons (by decide)]
    simp only [hmember,htail,Option.bind_eq_bind,Option.bind_some,Option.pure_def]
    rfl

end

theorem number_length {n : Number} (hn : n.Formed) : 1 ≤ n.text.length := by
  obtain ⟨c,cs,hc,_⟩ := number_starts hn
  rw [hc]
  simp

mutual

theorem cost_le (v : Value) (hv : v.Formed) : cost v ≤ (render v).length := by
  match v with
  | .null => simp [cost,render]
  | .bool true => simp [cost,render]
  | .bool false => simp [cost,render]
  | .number n => exact number_length hv
  | .string ps => simp [cost,render,stringLiteral]
  | .array [] => simp [cost,render]
  | .array (x::xs) =>
    have h1 := cost_le x hv.1
    have h2 := costItems_le xs hv.2
    simp only [cost,render,List.length_cons,List.length_append]
    omega
  | .object [] => simp [cost,render]
  | .object ((k,v)::ms) =>
    have h1 := cost_le v hv.2.1
    have h2 := costMembers_le ms hv.2.2
    simp only [cost,render,List.length_cons,List.length_append]
    omega

theorem costItems_le (xs : List Value) (hx : FormedItems xs) :
    costItems xs ≤ (renderItems xs).length := by
  match xs with
  | [] => simp [costItems,renderItems]
  | x::xs =>
    have h1 := cost_le x hx.1
    have h2 := costItems_le xs hx.2
    simp only [costItems,renderItems,List.length_cons,List.length_append]
    omega

theorem costMembers_le (ms : List (List Piece × Value)) (hm : FormedMembers ms) :
    costMembers ms ≤ (renderMembers ms).length := by
  match ms with
  | [] => simp [costMembers,renderMembers]
  | (k,v)::ms =>
    have h1 := cost_le v hm.2.1
    have h2 := costMembers_le ms hm.2.2
    simp only [costMembers,renderMembers,List.length_cons,List.length_append]
    omega

end

theorem stops_nil : Stops [] := nofun

/-- Compact text reads back as the value it was written from. -/
theorem parse_render (v : Value) (hv : v.Formed) : parse (render v) = some v := by
  have hcost := cost_le v hv
  have hp := parseValue_render v hv ((render v).length+1) (by omega) [] stops_nil
  rw [List.append_nil] at hp
  rw [parse,hp]
  rfl

theorem parseObject_render (ms : List (List Piece × Value)) (hm : FormedMembers ms) :
    parseObject (render (.object ms)) = some (ms.map writtenMember) := by
  cases ms with
  | nil => rfl
  | cons m ms =>
    obtain ⟨k,v⟩ := m
    obtain ⟨hk,hv,hms⟩ := hm
    have hcv := cost_le v hv
    have hcms := costMembers_le ms hms
    have htext : render (.object ((k,v)::ms)) =
        '\x7b'::(stringLiteral k ++ ':'::(render v ++ (renderMembers ms ++ []))) := by
      simp [render]
    have hlen : cost v+costMembers ms+2 ≤ (render (.object ((k,v)::ms))).length := by
      simp only [render,List.length_cons,List.length_append]
      omega
    have hvalue := parseValue_render v hv (render (.object ((k,v)::ms))).length (by omega)
      (renderMembers ms ++ []) (stops_members ms [])
    have hmember := parseMember_render hk hv hvalue
    have hrest := parseMembers_render ms hms ((render (.object ((k,v)::ms))).length+1) (by omega) []
    have hkey : skipSpace (stringLiteral k ++ ':'::(render v ++ (renderMembers ms ++ []))) =
        stringLiteral k ++ ':'::(render v ++ (renderMembers ms ++ [])) :=
      skipSpace_cons (by decide) _
    rw [parseObject]
    generalize (render (.object ((k,v)::ms))).length = n at hmember hrest
    rw [htext,skipSpace_cons (by decide)]
    simp only [hkey]
    split
    · next h => exact absurd (List.cons.inj h).1 (by decide)
    · simp only [hmember,hrest]
      rfl

def Member.Formed (m : Member) : Prop := (∀ p ∈ m.key, p.Formed) ∧ m.value.Formed

theorem formedMembers_map {ms : List Member} (h : ∀ m ∈ ms, m.Formed) :
    FormedMembers (ms.map fun m => (m.key,m.value)) := by
  induction ms with
  | nil => trivial
  | cons m ms ih =>
    have hm := h m List.mem_cons_self
    exact ⟨hm.1,hm.2,ih fun x hx => h x (List.mem_cons_of_mem _ hx)⟩

/-- Whatever the reader accepts is well formed. -/
theorem parse_formed_aux (fuel : Nat) :
    (∀ input v rest, parseValue fuel input = some (v,rest) → v.Formed) ∧
    (∀ input xs rest, parseItems fuel input = some (xs,rest) → FormedItems xs) ∧
    (∀ input m rest, parseMember fuel input = some (m,rest) → m.Formed) ∧
    ∀ input ms rest, parseMembers fuel input = some (ms,rest) → ∀ m ∈ ms, m.Formed := by
  -- the four readers call each other with less fuel
  induction fuel with
  | zero =>
    refine ⟨?_,?_,?_,?_⟩
    · intro input v rest h
      cases h
    · intro input xs rest h
      cases h
    · intro input m rest h
      cases h
    · intro input ms rest h
      cases h
  | succ fuel ih =>
    obtain ⟨ihv,ihi,ihm,ihms⟩ := ih
    refine ⟨?_,?_,?_,?_⟩
    · intro input v rest h
      rw [parseValue] at h
      split at h
      · obtain ⟨⟨ps,r⟩,hs,he⟩ := Option.map_eq_some_iff.mp h
        cases he
        exact scanString_formed hs
      · split at h
        · cases h
          trivial
        · obtain ⟨⟨x,r1⟩,hx,h⟩ := Option.bind_eq_some_iff.mp h
          obtain ⟨⟨xs,r2⟩,hxs,h⟩ := Option.bind_eq_some_iff.mp h
          cases h
          exact ⟨ihv _ _ _ hx,ihi _ _ _ hxs⟩
      · split at h
        · cases h
          trivial
        · obtain ⟨⟨m,r1⟩,hm,h⟩ := Option.bind_eq_some_iff.mp h
          obtain ⟨⟨ms,r2⟩,hms,h⟩ := Option.bind_eq_some_iff.mp h
          cases h
          have hm' := ihm _ _ _ hm
          exact ⟨hm'.1,hm'.2,formedMembers_map (ihms _ _ _ hms)⟩
      · cases h
        trivial
      · cases h
        trivial
      · cases h
        trivial
      · obtain ⟨⟨n,r⟩,hn,he⟩ := Option.map_eq_some_iff.mp h
        cases he
        exact scanNumber_formed hn
    · intro input xs rest h
      rw [parseItems] at h
      split at h
      · cases h
        trivial
      · obtain ⟨⟨x,r1⟩,hx,h⟩ := Option.bind_eq_some_iff.mp h
        obtain ⟨⟨xs,r2⟩,hxs,h⟩ := Option.bind_eq_some_iff.mp h
        cases h
        exact ⟨ihv _ _ _ hx,ihi _ _ _ hxs⟩
      · cases h
    · intro input m rest h
      rw [parseMember] at h
      split at h
      · obtain ⟨⟨key,r1⟩,hk,h⟩ := Option.bind_eq_some_iff.mp h
        dsimp only at h
        split at h
        · obtain ⟨⟨value,r2⟩,hv,h⟩ := Option.bind_eq_some_iff.mp h
          cases h
          exact ⟨scanString_formed hk,ihv _ _ _ hv⟩
        · cases h
      · cases h
    · intro input ms rest h
      rw [parseMembers] at h
      split at h
      · cases h
        nofun
      · obtain ⟨⟨m,r1⟩,hm,h⟩ := Option.bind_eq_some_iff.mp h
        obtain ⟨⟨ms,r2⟩,hms,h⟩ := Option.bind_eq_some_iff.mp h
        cases h
        intro x hx
        rcases List.mem_cons.mp hx with rfl | hx
        · exact ihm _ _ _ hm
        · exact ihms _ _ _ hms x hx
      · cases h

theorem parse_formed {text : List Char} {v : Value} (h : parse text = some v) : v.Formed := by
  unfold parse at h
  split at h
  · next w rest hp =>
    split at h
    · cases h
      exact (parse_formed_aux _).1 _ _ _ hp
    · cases h
  · cases h

mutual

/-- The value with its strings safe inside HTML, as the writer of raw text puts them out. -/
def Value.escapeHTML : Value → Value
  | .null => .null
  | .bool b => .bool b
  | .number n => .number n
  | .string ps => .string (ps.map Piece.escapeHTML)
  | .array items => .array (escapeItems items)
  | .object members => .object (escapeMembers members)

def escapeItems : List Value → List Value
  | [] => []
  | x::xs => x.escapeHTML::escapeItems xs

def escapeMembers : List (List Piece × Value) → List (List Piece × Value)
  | [] => []
  | (k,v)::ms => (k.map Piece.escapeHTML,v.escapeHTML)::escapeMembers ms

end

theorem pieces_escapeHTML {ps : List Piece} (h : ∀ p ∈ ps, p.Formed) :
    ∀ p ∈ ps.map Piece.escapeHTML, p.Formed := by
  intro p hp
  obtain ⟨q,hq,rfl⟩ := List.mem_map.mp hp
  exact escapeHTML_formed (h q hq)

mutual

theorem Value.escapeHTML_formed (v : Value) (hv : v.Formed) : v.escapeHTML.Formed := by
  match v with
  | .null => trivial
  | .bool _ => trivial
  | .number n => exact hv
  | .string ps => exact pieces_escapeHTML hv
  | .array items => exact escapeItems_formed items hv
  | .object members => exact escapeMembers_formed members hv

theorem escapeItems_formed (xs : List Value) (hx : FormedItems xs) : FormedItems (escapeItems xs) := by
  match xs with
  | [] => trivial
  | x::xs => exact ⟨x.escapeHTML_formed hx.1,escapeItems_formed xs hx.2⟩

theorem escapeMembers_formed (ms : List (List Piece × Value)) (hm : FormedMembers ms) :
    FormedMembers (escapeMembers ms) := by
  match ms with
  | [] => trivial
  | (k,v)::ms =>
    exact ⟨pieces_escapeHTML hm.1,v.escapeHTML_formed hm.2.1,escapeMembers_formed ms hm.2.2⟩

end

theorem pieces_escapeHTML_twice (ps : List Piece) :
    (ps.map Piece.escapeHTML).map Piece.escapeHTML = ps.map Piece.escapeHTML := by
  have hp (p : Piece) : p.escapeHTML.escapeHTML = p.escapeHTML := by
    cases p with
    | plain c => by_cases h : c ∈ htmlUnsafe <;> simp [Piece.escapeHTML,h,codePiece]
    | escape c => rfl
    | code a b c d => rfl
  simp [hp,Function.comp_def]

mutual

theorem Value.escapeHTML_twice (v : Value) : v.escapeHTML.escapeHTML = v.escapeHTML := by
  match v with
  | .null => rfl
  | .bool _ => rfl
  | .number n => rfl
  | .string ps => simp only [Value.escapeHTML,pieces_escapeHTML_twice]
  | .array items => simp only [Value.escapeHTML,escapeItems_twice]
  | .object members => simp only [Value.escapeHTML,escapeMembers_twice]

theorem escapeItems_twice (xs : List Value) : escapeItems (escapeItems xs) = escapeItems xs := by
  match xs with
  | [] => rfl
  | x::xs => simp only [escapeItems,x.escapeHTML_twice,escapeItems_twice xs]

theorem escapeMembers_twice (ms : List (List Piece × Value)) :
    escapeMembers (escapeMembers ms) = escapeMembers ms := by
  match ms with
  | [] => rfl
  | (k,v)::ms =>
    simp only [escapeMembers,pieces_escapeHTML_twice,v.escapeHTML_twice,escapeMembers_twice ms]

end

end Json
