import SceneScript.Machine.Value

/-!
# Samples

Texts for those who write snippets: what to tell a generator of snippets, an example, and snippets
that succeed or fail in known ways.
-/

namespace SceneScript.Samples

/-- What a generator of snippets has to know. -/
def prompt : String :=
  "Generate ONLY the body of a modelsnip `createModel` function that builds a low-poly, " ++
  "game-ready 3D model of: [DESCRIBE YOUR OBJECT HERE].\n" ++
  "\n" ++
  "Return ONLY statements, no function header, no `use` lines, no explanations. The body " ++
  "runs inside:\n" ++
  "\n" ++
  "fn createModel(modelBuilder: ModelBuilder) -> Model \x7b\n" ++
  "    // your statements here\n" ++
  "    return modelBuilder.end();\n" ++
  "\x7d\n" ++
  "\n" ++
  "Language rules:\n" ++
  "- declare variables with `let name = expr;` or `let name: Type = expr;`\n" ++
  "- loops: `for i in 0..n \x7b ... \x7d`, branches: `if cond \x7b ... \x7d else \x7b ... " ++
  "\x7d`\n" ++
  "- static members use `Type::member`, instance members use `value.member`\n" ++
  "- numbers are `int` or `float`; ints widen to floats automatically\n" ++
  "\n" ++
  "Available API (nothing else resolves):\n" ++
  "- ModelBuilder: box(w, h, d), sphere(r, divisions), cylinder(r, h, divisions), cone(r, " ++
  "h, divisions), plane(w, d) -> part id; node() -> Node; part(node, partId, material)\n" ++
  "- Node: id, translation, rotation (degrees), scale; addPart(partId, material), " ++
  "addChild(node), setTranslation(x, y, z)\n" ++
  "- Vector3: Vector3::new(x, y, z), set, add, sub, scl, len, nor, cpy, dot, crs\n" ++
  "- Color: Color::new(r, g, b, a), Color::rgb(r, g, b), " ++
  "Color::WHITE/BLACK/RED/GREEN/BLUE/GRAY/BROWN, lerp, cpy\n" ++
  "- ColorAttribute: createDiffuse(color), createSpecular(color), createEmissive(color)\n" ++
  "- Material: Material::new(), Material::of(attribute), set(attribute)\n" ++
  "- Array, String, Integer, Float, Double, Boolean helpers\n" ++
  "\n" ++
  "Keep part counts small (under 50 parts) and divisions between 3 and 64."

/-- A tree of few triangles. -/
def tree : String :=
  "// Simple low-poly tree\n" ++
  "\n" ++
  "// Trunk (brown cylinder)\n" ++
  "let trunkId = modelBuilder.cylinder(0.3, 1.5, 16);\n" ++
  "let trunk = modelBuilder.node();\n" ++
  "trunk.id = \"trunk\";\n" ++
  "trunk.translation.set(0, 0.75, 0);\n" ++
  "trunk.addPart(trunkId, Material::of(ColorAttribute::createDiffuse(Color::new(0.4, 0.25, " ++
  "0.1, 1))));\n" ++
  "\n" ++
  "// Foliage (green cone)\n" ++
  "let foliageId = modelBuilder.cone(1.2, 2, 8);\n" ++
  "let foliage = modelBuilder.node();\n" ++
  "foliage.id = \"foliage\";\n" ++
  "foliage.translation.set(0, 2.5, 0);\n" ++
  "foliage.addPart(foliageId, Material::of(ColorAttribute::createDiffuse(Color::new(0.2, " ++
  "0.6, 0.2, 1))));\n" ++
  "\n" ++
  "// Ground plane\n" ++
  "let groundId = modelBuilder.box(4, 0.1, 4);\n" ++
  "let ground = modelBuilder.node();\n" ++
  "ground.id = \"ground\";\n" ++
  "ground.addPart(groundId, Material::of(ColorAttribute::createDiffuse(Color::rgb(0.3, " ++
  "0.5, 0.3))));\n"

/-- One red box. -/
def coloredBox : String :=
  "let partId = modelBuilder.box(1, 1, 1);\n" ++
  "let node = modelBuilder.node();\n" ++
  "node.id = \"box\";\n" ++
  "node.addPart(partId, Material::of(ColorAttribute::createDiffuse(Color::RED)));\n"

/-- Two nodes, one above the other. -/
def hierarchy : String :=
  "let cube = modelBuilder.box(1, 1, 1);\n" ++
  "let ball = modelBuilder.sphere(0.5, 12);\n" ++
  "let paint = Material::of(ColorAttribute::createDiffuse(Color::BLUE));\n" ++
  "\n" ++
  "let base = modelBuilder.node();\n" ++
  "base.id = \"base\";\n" ++
  "base.addPart(cube, paint);\n" ++
  "\n" ++
  "let top = modelBuilder.node();\n" ++
  "top.id = \"top\";\n" ++
  "top.setTranslation(0, 1.5, 0);\n" ++
  "top.addPart(ball, paint);\n" ++
  "base.addChild(top);\n"

/-- Five boxes in alternating colours. -/
def rowOfBoxes : String :=
  "let cube = modelBuilder.box(0.8, 0.8, 0.8);\n" ++
  "let light = Material::of(ColorAttribute::createDiffuse(Color::WHITE));\n" ++
  "let dark = Material::of(ColorAttribute::createDiffuse(Color::GRAY));\n" ++
  "for i in 0..5 \x7b\n" ++
  "    let n = modelBuilder.node();\n" ++
  "    n.id = \"cell\" + i;\n" ++
  "    n.translation.x = i * 1.0;\n" ++
  "    if i % 2 == 0 \x7b\n" ++
  "        n.addPart(cube, light);\n" ++
  "    \x7d else \x7b\n" ++
  "        n.addPart(cube, dark);\n" ++
  "    \x7d\n" ++
  "\x7d\n"

/-- A model without nodes. -/
def emptyModel : String :=
  "let nothing = 0;\n"

/-- A fault in the builder. -/
def negativeSize : String :=
  "let id = modelBuilder.box(-1, 1, 1);\n"

/-- No model at all. -/
def returnsNull : String :=
  "return null;\n"

/-- A missing brace. -/
def unbalanced : String :=
  "if true \x7b\n" ++
  "    let a = 1;\n"

/-- Names of classes that are not granted or that no one knows. -/
def forbidden : List String :=
  ["let t = lang.Math::sin(1.0);\n",
    "host.System::exit(0);\n",
    "let s = host.Files::read(\"/etc/passwd\");\n",
    "let env = graphics.Environment::new();\n",
    "let fs = std.fs.File::open(\"x\");\n"]

def box (width height depth : Float) : String :=
  let shown := ", ".intercalate ([width, height, depth].map Value.numberLayout.float)
  "let id = modelBuilder.box(" ++ shown ++ ");\n" ++
    "let n = modelBuilder.node();\n" ++
    "n.addPart(id, Material::new());\n"

/-- Spheres on top of each other. -/
def stackedSpheres (count divisions : Nat) : String :=
  s!"let ball = modelBuilder.sphere(0.5, {divisions});\n" ++
    "let m = Material::of(ColorAttribute::createDiffuse(Color::GREEN));\n" ++
    s!"for i in 0..{count} \x7b\n" ++
    "    let n = modelBuilder.node();\n" ++
    "    n.setTranslation(0, i, 0);\n" ++
    "    n.addPart(ball, m);\n" ++
    "\x7d\n"

end SceneScript.Samples
