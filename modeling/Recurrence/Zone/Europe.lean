import Recurrence.Zone

namespace Recurrence.Zone

/-! Zones of Europe.

The changes of a history are listed from the latest to the earliest, in Unix seconds.  The phase of
the first one holds for all later times.
-/

namespace London

def localMean : Phase := ⟨-60, 0⟩

def standard : Phase := ⟨0, 0⟩

def summer : Phase := ⟨3600, 3600⟩

def doubleSummer : Phase := ⟨7200, 7200⟩

def standardYear : Phase := ⟨3600, 0⟩

def history : History where
  name := "Europe/London"
  initial := localMean
  shifts := [
    ⟨2140045200, standard⟩, ⟨2121901200, summer⟩, ⟨2108595600, standard⟩, ⟨2090451600, summer⟩,
    ⟨2077146000, standard⟩, ⟨2058397200, summer⟩, ⟨2045696400, standard⟩, ⟨2026947600, summer⟩,
    ⟨2014246800, standard⟩, ⟨1995498000, summer⟩, ⟨1982797200, standard⟩, ⟨1964048400, summer⟩,
    ⟨1950742800, standard⟩, ⟨1932598800, summer⟩, ⟨1919293200, standard⟩, ⟨1901149200, summer⟩,
    ⟨1887843600, standard⟩, ⟨1869094800, summer⟩, ⟨1856394000, standard⟩, ⟨1837645200, summer⟩,
    ⟨1824944400, standard⟩, ⟨1806195600, summer⟩, ⟨1792890000, standard⟩, ⟨1774746000, summer⟩,
    ⟨1761440400, standard⟩, ⟨1743296400, summer⟩, ⟨1729990800, standard⟩, ⟨1711846800, summer⟩,
    ⟨1698541200, standard⟩, ⟨1679792400, summer⟩, ⟨1667091600, standard⟩, ⟨1648342800, summer⟩,
    ⟨1635642000, standard⟩, ⟨1616893200, summer⟩, ⟨1603587600, standard⟩, ⟨1585443600, summer⟩,
    ⟨1572138000, standard⟩, ⟨1553994000, summer⟩, ⟨1540688400, standard⟩, ⟨1521939600, summer⟩,
    ⟨1509238800, standard⟩, ⟨1490490000, summer⟩, ⟨1477789200, standard⟩, ⟨1459040400, summer⟩,
    ⟨1445734800, standard⟩, ⟨1427590800, summer⟩, ⟨1414285200, standard⟩, ⟨1396141200, summer⟩,
    ⟨1382835600, standard⟩, ⟨1364691600, summer⟩, ⟨1351386000, standard⟩, ⟨1332637200, summer⟩,
    ⟨1319936400, standard⟩, ⟨1301187600, summer⟩, ⟨1288486800, standard⟩, ⟨1269738000, summer⟩,
    ⟨1256432400, standard⟩, ⟨1238288400, summer⟩, ⟨1224982800, standard⟩, ⟨1206838800, summer⟩,
    ⟨1193533200, standard⟩, ⟨1174784400, summer⟩, ⟨1162083600, standard⟩, ⟨1143334800, summer⟩,
    ⟨1130634000, standard⟩, ⟨1111885200, summer⟩, ⟨1099184400, standard⟩, ⟨1080435600, summer⟩,
    ⟨1067130000, standard⟩, ⟨1048986000, summer⟩, ⟨1035680400, standard⟩, ⟨1017536400, summer⟩,
    ⟨1004230800, standard⟩, ⟨985482000, summer⟩, ⟨972781200, standard⟩, ⟨954032400, summer⟩,
    ⟨941331600, standard⟩, ⟨922582800, summer⟩, ⟨909277200, standard⟩, ⟨891133200, summer⟩,
    ⟨877827600, standard⟩, ⟨859683600, summer⟩, ⟨846378000, standard⟩, ⟨828234000, summer⟩,
    ⟨814323600, standard⟩, ⟨796179600, summer⟩, ⟨782874000, standard⟩, ⟨764730000, summer⟩,
    ⟨751424400, standard⟩, ⟨733280400, summer⟩, ⟨719974800, standard⟩, ⟨701830800, summer⟩,
    ⟨688525200, standard⟩, ⟨670381200, summer⟩, ⟨657075600, standard⟩, ⟨638326800, summer⟩,
    ⟨625626000, standard⟩, ⟨606877200, summer⟩, ⟨593571600, standard⟩, ⟨575427600, summer⟩,
    ⟨562122000, standard⟩, ⟨543978000, summer⟩, ⟨530672400, standard⟩, ⟨512528400, summer⟩,
    ⟨499222800, standard⟩, ⟨481078800, summer⟩, ⟨467773200, standard⟩, ⟨449024400, summer⟩,
    ⟨435718800, standard⟩, ⟨417574800, summer⟩, ⟨404269200, standard⟩, ⟨386125200, summer⟩,
    ⟨372819600, standard⟩, ⟨354675600, summer⟩, ⟨341373600, standard⟩, ⟨322020000, summer⟩,
    ⟨309924000, standard⟩, ⟨290570400, summer⟩, ⟨278474400, standard⟩, ⟨259120800, summer⟩,
    ⟨246420000, standard⟩, ⟨227671200, summer⟩, ⟨214970400, standard⟩, ⟨196221600, summer⟩,
    ⟨183520800, standard⟩, ⟨164167200, summer⟩, ⟨152071200, standard⟩, ⟨132717600, summer⟩,
    ⟨120621600, standard⟩, ⟨101268000, summer⟩, ⟨89172000, standard⟩, ⟨69818400, summer⟩,
    ⟨57722400, standard⟩, ⟨-37242000, standardYear⟩, ⟨-59004000, summer⟩, ⟨-68680800, standard⟩,
    ⟨-88034400, summer⟩, ⟨-100735200, standard⟩, ⟨-119484000, summer⟩, ⟨-132184800, standard⟩,
    ⟨-150933600, summer⟩, ⟨-163634400, standard⟩, ⟨-182383200, summer⟩, ⟨-195084000, standard⟩,
    ⟨-213228000, summer⟩, ⟨-226533600, standard⟩, ⟨-245282400, summer⟩, ⟨-257983200, standard⟩,
    ⟨-276732000, summer⟩, ⟨-291852000, standard⟩, ⟨-306972000, summer⟩, ⟨-323301600, standard⟩,
    ⟨-337816800, summer⟩, ⟨-354751200, standard⟩, ⟨-369266400, summer⟩, ⟨-386200800, standard⟩,
    ⟨-401320800, summer⟩, ⟨-417650400, standard⟩, ⟨-432165600, summer⟩, ⟨-449704800, standard⟩,
    ⟨-464220000, summer⟩, ⟨-481154400, standard⟩, ⟨-496274400, summer⟩, ⟨-512604000, standard⟩,
    ⟨-527119200, summer⟩, ⟨-542239200, standard⟩, ⟨-558568800, summer⟩, ⟨-574293600, standard⟩,
    ⟨-590623200, summer⟩, ⟨-605743200, standard⟩, ⟨-622072800, summer⟩, ⟨-636588000, standard⟩,
    ⟨-654732000, summer⟩, ⟨-668037600, standard⟩, ⟨-687996000, summer⟩, ⟨-699487200, standard⟩,
    ⟨-706748400, summer⟩, ⟨-717030000, doubleSummer⟩, ⟨-719445600, summer⟩, ⟨-733356000, standard⟩,
    ⟨-748476000, summer⟩, ⟨-764805600, standard⟩, ⟨-772066800, summer⟩, ⟨-781052400, doubleSummer⟩,
    ⟨-798073200, summer⟩, ⟨-812588400, doubleSummer⟩, ⟨-832546800, summer⟩,
    ⟨-844038000, doubleSummer⟩, ⟨-864601200, summer⟩, ⟨-875487600, doubleSummer⟩,
    ⟨-896050800, summer⟩, ⟨-904518000, doubleSummer⟩, ⟨-942012000, summer⟩, ⟨-950479200, standard⟩,
    ⟨-969228000, summer⟩, ⟨-986162400, standard⟩, ⟨-1001282400, summer⟩, ⟨-1017612000, standard⟩,
    ⟨-1032127200, summer⟩, ⟨-1049061600, standard⟩, ⟨-1063576800, summer⟩, ⟨-1080511200, standard⟩,
    ⟨-1095631200, summer⟩, ⟨-1111960800, standard⟩, ⟨-1126476000, summer⟩, ⟨-1143410400, standard⟩,
    ⟨-1159135200, summer⟩, ⟨-1175464800, standard⟩, ⟨-1189980000, summer⟩, ⟨-1206914400, standard⟩,
    ⟨-1221429600, summer⟩, ⟨-1238364000, standard⟩, ⟨-1253484000, summer⟩, ⟨-1269813600, standard⟩,
    ⟨-1284328800, summer⟩, ⟨-1301263200, standard⟩, ⟨-1315778400, summer⟩, ⟨-1333317600, standard⟩,
    ⟨-1348437600, summer⟩, ⟨-1364767200, standard⟩, ⟨-1379282400, summer⟩, ⟨-1396216800, standard⟩,
    ⟨-1410732000, summer⟩, ⟨-1428876000, standard⟩, ⟨-1442786400, summer⟩, ⟨-1460930400, standard⟩,
    ⟨-1473631200, summer⟩, ⟨-1490565600, standard⟩, ⟨-1507500000, summer⟩, ⟨-1522533600, standard⟩,
    ⟨-1538344800, summer⟩, ⟨-1552168800, standard⟩, ⟨-1570399200, summer⟩, ⟨-1586037600, standard⟩,
    ⟨-1601848800, summer⟩, ⟨-1617487200, standard⟩, ⟨-1633903200, summer⟩, ⟨-1650146400, standard⟩,
    ⟨-1664143200, summer⟩, ⟨-1680472800, standard⟩, ⟨-1691964000, summer⟩, ⟨-2147483648, standard⟩]

end London

namespace Berlin

def localMean : Phase := ⟨3180, 0⟩

def standard : Phase := ⟨3600, 0⟩

def summer : Phase := ⟨7200, 3600⟩

def doubleSummer : Phase := ⟨10800, 7200⟩

def history : History where
  name := "Europe/Berlin"
  initial := localMean
  shifts := [
    ⟨2140045200, standard⟩, ⟨2121901200, summer⟩, ⟨2108595600, standard⟩, ⟨2090451600, summer⟩,
    ⟨2077146000, standard⟩, ⟨2058397200, summer⟩, ⟨2045696400, standard⟩, ⟨2026947600, summer⟩,
    ⟨2014246800, standard⟩, ⟨1995498000, summer⟩, ⟨1982797200, standard⟩, ⟨1964048400, summer⟩,
    ⟨1950742800, standard⟩, ⟨1932598800, summer⟩, ⟨1919293200, standard⟩, ⟨1901149200, summer⟩,
    ⟨1887843600, standard⟩, ⟨1869094800, summer⟩, ⟨1856394000, standard⟩, ⟨1837645200, summer⟩,
    ⟨1824944400, standard⟩, ⟨1806195600, summer⟩, ⟨1792890000, standard⟩, ⟨1774746000, summer⟩,
    ⟨1761440400, standard⟩, ⟨1743296400, summer⟩, ⟨1729990800, standard⟩, ⟨1711846800, summer⟩,
    ⟨1698541200, standard⟩, ⟨1679792400, summer⟩, ⟨1667091600, standard⟩, ⟨1648342800, summer⟩,
    ⟨1635642000, standard⟩, ⟨1616893200, summer⟩, ⟨1603587600, standard⟩, ⟨1585443600, summer⟩,
    ⟨1572138000, standard⟩, ⟨1553994000, summer⟩, ⟨1540688400, standard⟩, ⟨1521939600, summer⟩,
    ⟨1509238800, standard⟩, ⟨1490490000, summer⟩, ⟨1477789200, standard⟩, ⟨1459040400, summer⟩,
    ⟨1445734800, standard⟩, ⟨1427590800, summer⟩, ⟨1414285200, standard⟩, ⟨1396141200, summer⟩,
    ⟨1382835600, standard⟩, ⟨1364691600, summer⟩, ⟨1351386000, standard⟩, ⟨1332637200, summer⟩,
    ⟨1319936400, standard⟩, ⟨1301187600, summer⟩, ⟨1288486800, standard⟩, ⟨1269738000, summer⟩,
    ⟨1256432400, standard⟩, ⟨1238288400, summer⟩, ⟨1224982800, standard⟩, ⟨1206838800, summer⟩,
    ⟨1193533200, standard⟩, ⟨1174784400, summer⟩, ⟨1162083600, standard⟩, ⟨1143334800, summer⟩,
    ⟨1130634000, standard⟩, ⟨1111885200, summer⟩, ⟨1099184400, standard⟩, ⟨1080435600, summer⟩,
    ⟨1067130000, standard⟩, ⟨1048986000, summer⟩, ⟨1035680400, standard⟩, ⟨1017536400, summer⟩,
    ⟨1004230800, standard⟩, ⟨985482000, summer⟩, ⟨972781200, standard⟩, ⟨954032400, summer⟩,
    ⟨941331600, standard⟩, ⟨922582800, summer⟩, ⟨909277200, standard⟩, ⟨891133200, summer⟩,
    ⟨877827600, standard⟩, ⟨859683600, summer⟩, ⟨846378000, standard⟩, ⟨828234000, summer⟩,
    ⟨811904400, standard⟩, ⟨796179600, summer⟩, ⟨780454800, standard⟩, ⟨764730000, summer⟩,
    ⟨749005200, standard⟩, ⟨733280400, summer⟩, ⟨717555600, standard⟩, ⟨701830800, summer⟩,
    ⟨686106000, standard⟩, ⟨670381200, summer⟩, ⟨654656400, standard⟩, ⟨638326800, summer⟩,
    ⟨622602000, standard⟩, ⟨606877200, summer⟩, ⟨591152400, standard⟩, ⟨575427600, summer⟩,
    ⟨559702800, standard⟩, ⟨543978000, summer⟩, ⟨528253200, standard⟩, ⟨512528400, summer⟩,
    ⟨496803600, standard⟩, ⟨481078800, summer⟩, ⟨465354000, standard⟩, ⟨449024400, summer⟩,
    ⟨433299600, standard⟩, ⟨417574800, summer⟩, ⟨401850000, standard⟩, ⟨386125200, summer⟩,
    ⟨370400400, standard⟩, ⟨354675600, summer⟩, ⟨338950800, standard⟩, ⟨323830800, summer⟩,
    ⟨-639010800, standard⟩, ⟨-654130800, summer⟩, ⟨-670460400, standard⟩, ⟨-684975600, summer⟩,
    ⟨-701910000, standard⟩, ⟨-710380800, summer⟩, ⟨-714610800, doubleSummer⟩, ⟨-717631200, summer⟩,
    ⟨-733273200, standard⟩, ⟨-748479600, summer⟩, ⟨-761180400, standard⟩, ⟨-765936000, summer⟩,
    ⟨-776563200, doubleSummer⟩, ⟨-781052400, summer⟩, ⟨-796777200, standard⟩, ⟨-812502000, summer⟩,
    ⟨-828226800, standard⟩, ⟨-844556400, summer⟩, ⟨-857257200, standard⟩, ⟨-938905200, summer⟩,
    ⟨-1618700400, standard⟩, ⟨-1632006000, summer⟩, ⟨-1650150000, standard⟩, ⟨-1663455600, summer⟩,
    ⟨-1680483600, standard⟩, ⟨-1693706400, summer⟩, ⟨-2147483648, standard⟩]

end Berlin

end Recurrence.Zone
